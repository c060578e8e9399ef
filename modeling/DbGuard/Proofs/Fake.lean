import DbGuard.Fake
import DbGuard.Ledger

/-!
# `DbGuard.Proofs.Fake`: what the simulated fleet keeps

A step of time changes no node's role and takes no transaction from a node. It acknowledges a
transaction only when a replica with a running IO thread has received it from a semi-sync
source, or when a node takes writes without semi-sync (`Acks`). `stepped_step` says so, by one
lemma for each part of the step, and `stepped_of_plain` for the faults that do no more.

`safe_of_move` is about every move: only a semi-sync source becomes writable, and a node loses
a transaction only by a move that `wipes` it. `calm_of_move` is about the moves that give no
node a new role.

`two_copies` is what semi-sync promises over a whole run: every acknowledged transaction is on
two nodes, while no node loses what it holds.
-/

set_option autoImplicit false

namespace DbGuard

open Machine (Reach)

/-- The node has its role as before, and has lost nothing. -/
structure FakeNode.Advances (a b : FakeNode) : Prop where
  rs : b.rs = a.rs
  source : b.source = a.source
  superReadOnly : b.superReadOnly = a.superReadOnly
  semisyncSource : b.semisyncSource = a.semisyncSource
  ioStopped : b.ioStopped = a.ioStopped
  partialTail : b.partialTail = a.partialTail
  executed : a.executed ⊆ b.executed
  retrieved : a.retrieved ⊆ b.retrieved

/-- The node has its role as before, or has lost its source. What it has applied is kept if
`spared`. -/
structure FakeNode.Stays (spared : Prop) (a b : FakeNode) : Prop where
  rs : b.rs = a.rs
  source : b.source = a.source ∨ b.source = none
  ioStopped : a.ioStopped = true → b.ioStopped = true
  executed : spared → a.executed ⊆ b.executed
  partialTail : spared → b.partialTail = a.partialTail

namespace FakeNode.Advances

variable {a b c : FakeNode}

/-- A node that stays as it is advances. -/
theorem refl (a : FakeNode) : a.Advances a :=
  ⟨rfl, rfl, rfl, rfl, rfl, rfl, GtidSet.Subset.refl _, GtidSet.Subset.refl _⟩

/-- One advance after another. -/
theorem trans (h : a.Advances b) (h' : b.Advances c) : a.Advances c where
  rs := h'.rs.trans h.rs
  source := h'.source.trans h.source
  superReadOnly := h'.superReadOnly.trans h.superReadOnly
  semisyncSource := h'.semisyncSource.trans h.semisyncSource
  ioStopped := h'.ioStopped.trans h.ioStopped
  partialTail := h'.partialTail.trans h.partialTail
  executed := GtidSet.Subset.trans h.executed h'.executed
  retrieved := GtidSet.Subset.trans h.retrieved h'.retrieved

/-- It loses no transaction. -/
theorem held (h : a.Advances b) : a.held ⊆ b.held := by
  intro g hg
  rcases a.mem_held.mp hg with hg | hg
  · exact b.mem_held.mpr (.inl (h.executed g hg))
  · exact b.mem_held.mpr (.inr (h.retrieved g hg))

end FakeNode.Advances

namespace FakeFleet

variable {F F' F'' : FakeFleet} {n r : Node} {rs : String} {g : Gtid} {now : Time}

/-- The node that is changed. -/
@[simp] theorem modify_node_self (f : FakeNode → FakeNode) :
    (F.modify n f).node n = f (F.node n) := Function.update_self _ _ _

/-- The other nodes are left alone. -/
theorem modify_node_of_ne (f : FakeNode → FakeNode) (h : r ≠ n) :
    (F.modify n f).node r = F.node r := Function.update_of_ne h _ _

/-- What is acknowledged is left alone. -/
@[simp] theorem modify_acked (f : FakeNode → FakeNode) : (F.modify n f).acked = F.acked := rfl

/-- What holds between each node of a fleet and the changed one holds after a change of one. -/
theorem forall_modify {P : Node → FakeNode → FakeNode → Prop} (f : FakeNode → FakeNode)
    (hself : P n (F.node n) (f (F.node n))) (hrest : ∀ m, m ≠ n → P m (F.node m) (F.node m)) :
    ∀ m, P m (F.node m) ((F.modify n f).node m) := by
  intro m
  by_cases h : m = n
  · subst h
    rw [modify_node_self]
    exact hself
  · rw [modify_node_of_ne f h]
    exact hrest m h

/-- A transaction of set `rs` is acknowledged: by a replica that received it from a semi-sync
source, or because some node takes writes without semi-sync. -/
def Acks (F : FakeFleet) (rs : String) (g : Gtid) : Prop :=
  (∃ r ∈ F.order, ∃ src, (F.node r).rs = rs ∧ (F.node r).source = some src ∧
    (F.node r).ioStopped = false ∧ (F.node src).semisyncSource = true ∧
      g ∈ (F.node src).executed ∧ g ∈ (F.node r).retrieved ∧ r ≠ src) ∨
    ∃ p, (F.node p).superReadOnly = false ∧ (F.node p).semisyncSource = false

/-- An acknowledgement stays one while the nodes advance. -/
theorem Acks.mono (h : F.Acks rs g) (horder : F'.order = F.order)
    (hnode : ∀ n, (F.node n).Advances (F'.node n)) : F'.Acks rs g := by
  rcases h with ⟨r, hr, src, hrs, hsource, hio, hsemi, hexec, hret, hne⟩ | ⟨p, hro, hsemi⟩
  · refine .inl ⟨r, horder ▸ hr, src, ?_, ?_, ?_, ?_, ?_, ?_, hne⟩
    · exact (hnode r).rs.trans hrs
    · exact (hnode r).source.trans hsource
    · exact (hnode r).ioStopped.trans hio
    · exact (hnode src).semisyncSource.trans hsemi
    · exact (hnode src).executed g hexec
    · exact (hnode r).retrieved g hret
  · refine .inr ⟨p, ?_, ?_⟩
    · exact (hnode p).superReadOnly.trans hro
    · exact (hnode p).semisyncSource.trans hsemi

/-- Time has passed: no role has changed, nothing is lost, and what is newly acknowledged is
acknowledged by `Acks`. -/
structure Stepped (F F' : FakeFleet) : Prop where
  semisync : F'.semisync = F.semisync
  order : F'.order = F.order
  node : ∀ n, (F.node n).Advances (F'.node n)
  acked : ∀ rs g, g ∈ F'.acked rs → g ∈ F.acked rs ∨ F'.Acks rs g

namespace Stepped

/-- No time has passed. -/
theorem refl (F : FakeFleet) : F.Stepped F where
  semisync := rfl
  order := rfl
  node _ := .refl _
  acked _ _ h := .inl h

/-- Time passes in two steps. -/
theorem trans (h : F.Stepped F') (h' : F'.Stepped F'') : F.Stepped F'' where
  semisync := h'.semisync.trans h.semisync
  order := h'.order.trans h.order
  node n := (h.node n).trans (h'.node n)
  acked rs g hg := by
    rcases h'.acked rs g hg with hg | hg
    · exact (h.acked rs g hg).imp_right fun hack => hack.mono h'.order h'.node
    · exact .inr hg

/-- One node advances. -/
theorem modify (f : FakeNode → FakeNode) (h : (F.node n).Advances (f (F.node n))) :
    F.Stepped (F.modify n f) where
  semisync := rfl
  order := rfl
  node := forall_modify (P := fun _ => FakeNode.Advances) f h fun _ _ => .refl _
  acked _ _ h := .inl h

/-- A part of the step that goes over nodes or sets. -/
theorem foldl {ι : Type} {f : FakeFleet → ι → FakeFleet} {l : List ι} {F : FakeFleet}
    (h : ∀ i ∈ l, ∀ F' : FakeFleet, F'.order = F.order → F'.Stepped (f F' i)) :
    F.Stepped (l.foldl f F) := by
  have hfold : ∀ (l' : List ι) (F' : FakeFleet), l' ⊆ l → F'.order = F.order →
      F'.Stepped (l'.foldl f F') := by
    intro l'
    induction l' with
    | nil => exact fun F' _ _ => .refl F'
    | cons i l' ih =>
      intro F' hsub horder
      have hi := h i (hsub List.mem_cons_self) F' horder
      exact hi.trans (ih _ (List.subset_of_cons_subset hsub) (hi.order.trans horder))
  exact hfold l F (List.Subset.refl l) rfl

end Stepped

/-! ### The parts of a step -/

/-- A set is part of its union with another. -/
theorem union_left (a b : GtidSet) : a ⊆ a ∪ b :=
  fun g h => (GtidSet.mem_union a b g).mpr (.inl h)

/-- The semi-sync wait of a node runs out, or its transactions are acknowledged. -/
theorem stepped_flush (F : FakeFleet) (n : Node) : F.Stepped (F.flush now n) := by
  unfold flush
  dsimp only
  split
  · exact .modify _ ⟨rfl, rfl, rfl, rfl, rfl, rfl, union_left _ _, GtidSet.Subset.refl _⟩
  · exact .refl F

/-- A writer commits. -/
theorem stepped_commit (F : FakeFleet) (n : Node) : F.Stepped (F.commit now rs n) := by
  have hbeat : ∀ F : FakeFleet,
      F.Stepped (F.modify n fun p => { p with heartbeatTs := some now }) := fun F =>
    .modify _ ⟨rfl, rfl, rfl, rfl, rfl, rfl, GtidSet.Subset.refl _, GtidSet.Subset.refl _⟩
  have hstall : ∀ (F : FakeFleet) b,
      F.Stepped { F with stalled := Function.update F.stalled n b } := fun F b =>
    ⟨rfl, rfl, fun _ => .refl _, fun _ _ h => .inl h⟩
  have hexec : ∀ (F : FakeFleet) (g : GtidSet), F.Stepped (F.modify n fun p =>
      { p with nextGno := p.nextGno + 1, executed := p.executed ∪ g }) := fun F g =>
    .modify _ ⟨rfl, rfl, rfl, rfl, rfl, rfl, union_left _ _, GtidSet.Subset.refl _⟩
  have hwrite : ∀ F₁ : FakeFleet, F.Stepped F₁ → ∀ b : Bool, F.Stepped
      (if b then F₁ else F₁.modify n fun p => { p with heartbeatTs := some now }) := by
    intro F₁ h b
    split
    · exact h
    · exact h.trans (hbeat F₁)
  unfold commit
  dsimp only
  split
  · exact .refl F
  · rename_i hwritable
    refine hwrite _ ?_ _
    split
    · exact .refl F
    · split
      · exact hstall F true
      · split
        · exact (hstall F false).trans (hexec _ _)
        · rename_i hsemi
          -- A writable node without semi-sync acknowledges by itself.
          have hstep := (hstall F false).trans
            (hexec _ (.ofInterval (F.node n).uuid (F.node n).nextGno (F.node n).nextGno))
          have hready : (F.node n).superReadOnly = false := by
            simp only [FakeNode.writable, Bool.not_eq_true', Bool.not_eq_false,
              Bool.and_eq_true] at hwritable
            simpa using hwritable.1.2
          refine ⟨rfl, rfl, hstep.node, fun _ _ _ => .inr (.inr ⟨n, ?_, ?_⟩)⟩
          · exact (hstep.node n).superReadOnly.trans hready
          · exact (hstep.node n).semisyncSource.trans (by simpa using hsemi)

/-- A replica receives from its source. -/
theorem stepped_receiveFrom (F : FakeFleet) (hr : r ∈ F.order) : F.Stepped (F.receiveFrom r) := by
  unfold receiveFrom
  dsimp only
  -- Nothing is received without a source, or while the IO thread does not run.
  split
  · exact .refl F
  · rename_i src hsource
    split
    · exact .refl F
    · rename_i hio
      have hstep : F.Stepped (F.modify r fun node =>
          { node with
            retrieved := node.retrieved ∪
              (((F.node src).executed \ (F.node r).executed) \ (F.node r).retrieved)
            heartbeatTs := (F.node src).heartbeatTs }) :=
        .modify _ ⟨rfl, rfl, rfl, rfl, rfl, rfl, GtidSet.Subset.refl _, union_left _ _⟩
      -- Under semi-sync the receipt is what acknowledges the transactions.
      split
      · rename_i hsemi
        refine ⟨rfl, rfl, hstep.node, fun rs g hg => ?_⟩
        by_cases hrs : rs = (F.node r).rs
        · subst hrs
          have hg : g ∈ F.acked (F.node r).rs ∪
              (((F.node src).executed \ (F.node r).executed) \ (F.node r).retrieved) := by
            simpa using hg
          rcases (GtidSet.mem_union _ _ g).mp hg with hg | hg
          · exact .inl hg
          · -- what `r` has just received, it did not hold, so `r` is not its own source
            have hnew := (GtidSet.mem_subtract _ _ g).mp hg
            have hexec := (GtidSet.mem_subtract _ _ g).mp hnew.1
            have hne : r ≠ src := fun heq => hexec.2 (heq ▸ hexec.1)
            have hstopped : (F.node r).ioStopped = false := by
              refine ioStopped_of_ioOk ?_
              simp only [Bool.or_eq_true, Bool.not_eq_true', not_or, Bool.not_eq_false] at hio
              exact hio.1
            simp only [Bool.and_eq_true] at hsemi
            refine .inr (.inl ⟨r, hr, src, (hstep.node r).rs, ?_, ?_, ?_, ?_, ?_, hne⟩)
            · exact (hstep.node r).source.trans hsource
            · exact (hstep.node r).ioStopped.trans hstopped
            · exact (hstep.node src).semisyncSource.trans hsemi.1
            · exact (hstep.node src).executed g hexec.1
            · show g ∈ (Function.update F.node r _ r).retrieved
              rw [Function.update_self]
              -- The new transaction is in the relay log of `r`, which is what acknowledging it
              -- needs.
              exact (GtidSet.mem_union _ _ g).mpr (.inr hg)
        -- The ledgers of other replica sets are not written.
        · have hg : g ∈ F.acked rs := by simpa [Function.update_of_ne hrs] using hg
          exact .inl hg
      · exact hstep

/-- A replica applies its relay log. -/
theorem stepped_applyRelay (F : FakeFleet) (r : Node) : F.Stepped (F.applyRelay r) := by
  unfold applyRelay
  dsimp only
  split
  · exact .refl F
  · exact .modify _ ⟨rfl, rfl, rfl, rfl, rfl, rfl, union_left _ _, GtidSet.Subset.refl _⟩

/-- `step`. -/
theorem stepped_step (F : FakeFleet) (now : Time) : F.Stepped (F.step now) := by
  unfold step
  dsimp only
  have hflush := Stepped.foldl (F := F) (l := F.order) (f := flush now)
    fun n _ F' _ => stepped_flush F' n
  have hcommit := fun F₁ : FakeFleet =>
    Stepped.foldl (F := F₁) (l := F₁.sets)
      (f := fun F s => (F.nodesOf s.1).foldl (commit now s.1) F)
      fun s _ F' _ => Stepped.foldl fun n _ F'' _ => stepped_commit F'' n
  have hreceive := fun F₁ : FakeFleet =>
    Stepped.foldl (F := F₁) (l := F₁.order) (f := receiveFrom)
      fun r hr F' horder => stepped_receiveFrom F' (horder ▸ hr)
  have happly := fun F₁ : FakeFleet =>
    Stepped.foldl (F := F₁) (l := F₁.order) (f := applyRelay)
      fun r _ F' _ => stepped_applyRelay F' r
  exact ((hflush.trans (hcommit _)).trans (hreceive _)).trans (happly _)

/-- The moves that give no node a role, a source or a state of its IO thread, and by which no
node loses a transaction. -/
def Move.isPlain : Move → Bool
  | .step _ | .write _ | .partition _ _ | .heal | .cutManager _ | .kill _ | .hang _ _
  | .freeze _ _ | .mysqld _ _ | .receive _ _ | .applyPerStep _ _ | .sqlError _ _ | .hide _ _
  | .errant _ _ | .wait _ _ _ | .unfence _ => true
  | _ => false

/-- A fault under which the node advances. -/
theorem stepped_of_fault {f : FakeNode → FakeNode} (h : F.fault n f = some F')
    (hf : (F.node n).Advances (f (F.node n))) : F.Stepped F' := by
  obtain ⟨-, ⟨⟩⟩ := Option.ite_none_right_eq_some.mp h
  exact .modify f hf

/-- A plain move. -/
theorem stepped_of_plain {m : Move} (h : F.move m = some F') (hm : m.isPlain = true) :
    F.Stepped F' := by
  have hrefl := GtidSet.Subset.refl
  cases m with
  | step now =>
    cases h
    exact stepped_step F now
  | write _ | partition _ _ | heal | cutManager _ =>
    cases h
    exact ⟨rfl, rfl, fun _ => .refl _, fun _ _ hg => .inl hg⟩
  | kill _ | hang _ _ | freeze _ _ | mysqld _ _ | receive _ _ | applyPerStep _ _ | sqlError _ _
  | hide _ _ | wait _ _ _ =>
    exact stepped_of_fault h ⟨rfl, rfl, rfl, rfl, rfl, rfl, hrefl _, hrefl _⟩
  | errant _ g =>
    exact stepped_of_fault h ⟨rfl, rfl, rfl, rfl, rfl, rfl, union_left _ _, hrefl _⟩
  | unfence n =>
    obtain ⟨-, ⟨⟩⟩ := Option.ite_none_right_eq_some.mp h
    exact .modify _ ⟨rfl, rfl, rfl, rfl, rfl, rfl, hrefl _, hrefl _⟩
  | _ => cases hm

/-! ### What every move keeps -/

/-- A node takes writes only as before or as a semi-sync source. -/
def Writes (semisync : Bool) (a b : FakeNode) : Prop :=
  b.superReadOnly = false → b.semisyncSource = semisync ∨
    (a.superReadOnly = false ∧ b.semisyncSource = a.semisyncSource)

/-- The node takes writes as before. -/
theorem Writes.refl (semisync : Bool) (a : FakeNode) : Writes semisync a a :=
  fun h => .inr ⟨h, rfl⟩

/-- A change in which nodes take writes by `Writes`, transactions are acknowledged by `Acks`,
and no node of `R` loses a transaction. -/
structure Safe (R : Set Node) (F F' : FakeFleet) : Prop where
  semisync : F'.semisync = F.semisync
  order : F'.order = F.order
  writes : ∀ n, Writes F.semisync (F.node n) (F'.node n)
  held : ∀ n ∈ R, (F.node n).held ⊆ (F'.node n).held
  acked : ∀ rs g, g ∈ F'.acked rs → g ∈ F.acked rs ∨ F'.Acks rs g

section
variable {R : Set Node}

/-- The passing of time is safe. -/
theorem Stepped.safe (h : F.Stepped F') : F.Safe R F' where
  semisync := h.semisync
  order := h.order
  writes n hn := .inr ⟨(h.node n).superReadOnly ▸ hn, (h.node n).semisyncSource⟩
  held n _ := (h.node n).held
  acked := h.acked

/-- One node changes. -/
theorem Safe.update {b : FakeNode} (hsemi : F'.semisync = F.semisync)
    (horder : F'.order = F.order) (hnode : F'.node = Function.update F.node n b)
    (hacked : F'.acked = F.acked) (hwrites : Writes F.semisync (F.node n) b)
    (hheld : n ∈ R → (F.node n).held ⊆ b.held) : F.Safe R F' := by
  refine ⟨hsemi, horder, fun m => ?_, fun m hm => ?_, fun rs g hg => .inl (hacked ▸ hg)⟩
  · rw [hnode]
    by_cases h : m = n
    · subst h
      rwa [Function.update_self]
    · rw [Function.update_of_ne h]
      exact .refl _ _
  · rw [hnode]
    by_cases h : m = n
    · subst h
      rw [Function.update_self]
      exact hheld hm
    · rw [Function.update_of_ne h]
      exact GtidSet.Subset.refl _

/-- One safe change after another, of which only one acknowledges. -/
theorem Safe.trans (h : F.Safe R F') (h' : F'.Safe R F'')
    (hacked : ∀ rs, F''.acked rs = F'.acked rs) (hack : ∀ rs, F'.acked rs = F.acked rs) :
    F.Safe R F'' where
  semisync := h'.semisync.trans h.semisync
  order := h'.order.trans h.order
  writes n hn := by
    rcases h'.writes n hn with hs | ⟨hro, hs⟩
    · exact .inl (hs.trans h.semisync)
    · exact (h.writes n hro).imp hs.trans fun hr => ⟨hr.1, hs.trans hr.2⟩
  held n hn := GtidSet.Subset.trans (h.held n hn) (h'.held n hn)
  acked rs g hg := .inl (hack rs ▸ hacked rs ▸ hg)

/-- The set-up of replication is safe. -/
theorem safe_setupReplication (F : FakeFleet) (rs : String) (primary : Node) :
    F.Safe R (F.setupReplication rs primary) := by
  have hfold : ∀ (l : List Node) (F₁ : FakeFleet), F.Safe R F₁ → F₁.acked = F.acked →
      F.Safe R (l.foldl (fun F n => F.modify n fun node =>
        if n = primary then { node with superReadOnly := false, semisyncSource := F.semisync }
        else { node with source := some primary, semisyncReplica := F.semisync }) F₁) := by
    intro l
    induction l with
    | nil => exact fun F₁ h _ => h
    | cons n l ih =>
      intro F₁ h hacked
      refine ih _ ?_ hacked
      refine h.trans (Safe.update (n := n) rfl rfl rfl rfl ?_ fun _ => ?_) (fun _ => rfl)
        fun rs => congrFun hacked rs
      · split
        · exact fun _ => .inl rfl
        · exact fun h => .inr ⟨h, rfl⟩
      · split <;> exact GtidSet.Subset.refl _
  exact hfold _ F (Stepped.refl F).safe rfl

/-- The node that loses its relay log or its data. -/
def Move.wipes : Move → Option Node
  | .start n | .promote n | .repoint n _ | .rebuilt n _ => some n
  | _ => none

/-- No node loses a transaction by this move: a relay log is discarded only when it is
applied, and a clone has what the node had. -/
def Retaining (F : FakeFleet) : Move → Prop
  | .start n | .promote n | .repoint n _ => (F.node n).retrieved ⊆ (F.node n).executed
  | .rebuilt n donor => (F.node n).held ⊆ (F.node donor).executed
  | _ => True

instance : DecidablePred F.Retaining
  | .start n | .promote n | .repoint n _ =>
    decidable_of_iff _ (GtidSet.isSubset_iff (F.node n).retrieved (F.node n).executed)
  | .rebuilt n donor =>
    decidable_of_iff _ (GtidSet.isSubset_iff (F.node n).held (F.node donor).executed)
  | .step _ | .setup _ _ | .write _ | .partition _ _ | .heal | .cutManager _ | .kill _
  | .hang _ _ | .freeze _ _ | .mysqld _ _ | .receive _ _ | .applyPerStep _ _ | .sqlError _ _
  | .hide _ _ | .reroute _ _ | .errant _ _ | .wait _ _ _ | .tear _ _ | .fence _ | .killed _
  | .unfence _ | .rebuild _ _ | .stopIo _ => .isTrue trivial

/-- What `b` holds in the end, of a node that loses nothing but a relay log it has applied. -/
theorem held_of_applied {a b : FakeNode} (h : a.retrieved ⊆ a.executed)
    (hb : a.executed ⊆ b.executed) : a.held ⊆ b.held := by
  intro g hg
  refine b.mem_held.mpr (.inl (hb g ?_))
  rcases a.mem_held.mp hg with hg | hg
  · exact hg
  · exact h g hg

/-- A node with more executed and more retrieved holds more. -/
theorem held_subset_held {a b : FakeNode} (hexec : a.executed ⊆ b.executed)
    (hret : a.retrieved ⊆ b.retrieved) : a.held ⊆ b.held := by
  intro g hg
  rcases a.mem_held.mp hg with hg | hg
  · exact b.mem_held.mpr (.inl (hexec g hg))
  · exact b.mem_held.mpr (.inr (hret g hg))

/-- One move, when the node that it wipes is outside of `R` or keeps what it holds. -/
theorem safe_of_move {m : Move} (h : F.move m = some F')
    (hm : ∀ n ∈ R, m.wipes = some n → F.Retaining m) : F.Safe R F' := by
  have hrefl := GtidSet.Subset.refl
  -- The two ways in which a node may take writes after the change.
  have hsame : ∀ {a b : FakeNode}, b.superReadOnly = a.superReadOnly →
      b.semisyncSource = a.semisyncSource → Writes F.semisync a b :=
    fun hro hs h => .inr ⟨hro ▸ h, hs⟩
  have hclosed : ∀ {a b : FakeNode}, b.superReadOnly = true → Writes F.semisync a b :=
    fun hro h => absurd (hro.symm.trans h) (by decide)
  cases m with
  | setup rs primary =>
    cases h
    exact safe_setupReplication F rs primary
  | reroute n source =>
    obtain ⟨-, ⟨⟩⟩ := Option.ite_none_right_eq_some.mp h
    exact .update rfl rfl rfl rfl (hsame rfl rfl) fun _ => hrefl _
  | tear n g =>
    obtain ⟨-, ⟨⟩⟩ := Option.ite_none_right_eq_some.mp h
    exact .update rfl rfl rfl rfl (hsame rfl rfl) fun _ =>
      held_subset_held (hrefl _) (union_left _ _)
  | start n =>
    obtain ⟨-, ⟨⟩⟩ := Option.ite_none_right_eq_some.mp h
    exact .update rfl rfl rfl rfl (hclosed rfl) fun hn =>
      held_of_applied (hm n hn rfl) (hrefl _)
  | fence n =>
    obtain ⟨-, ⟨⟩⟩ := Option.ite_none_right_eq_some.mp h
    unfold fence
    split
    · exact .update rfl rfl rfl rfl (hsame rfl rfl) fun _ => hrefl _
    · exact .update rfl rfl rfl rfl (hclosed rfl) fun _ => hrefl _
  | killed n =>
    obtain ⟨-, ⟨⟩⟩ := Option.ite_none_right_eq_some.mp h
    exact .update rfl rfl rfl rfl (hclosed rfl) fun _ => hrefl _
  | promote n =>
    obtain ⟨-, ⟨⟩⟩ := Option.ite_none_right_eq_some.mp h
    exact .update rfl rfl rfl rfl (fun _ => .inl rfl) fun hn =>
      held_of_applied (hm n hn rfl) (hrefl _)
  | repoint n source =>
    obtain ⟨-, ⟨⟩⟩ := Option.ite_none_right_eq_some.mp h
    exact .update rfl rfl rfl rfl (hclosed rfl) fun hn =>
      held_of_applied (hm n hn rfl) (hrefl _)
  | rebuild n donor =>
    obtain ⟨-, ⟨⟩⟩ := Option.ite_none_right_eq_some.mp h
    exact .update rfl rfl rfl rfl (hsame rfl rfl) fun _ => hrefl _
  | rebuilt n donor =>
    obtain ⟨-, ⟨⟩⟩ := Option.ite_none_right_eq_some.mp h
    exact .update rfl rfl rfl rfl (hclosed rfl) fun hn =>
      GtidSet.Subset.trans (hm n hn rfl) (union_left _ _)
  | stopIo n =>
    obtain ⟨-, ⟨⟩⟩ := Option.ite_none_right_eq_some.mp h
    exact .update rfl rfl rfl rfl (hsame rfl rfl) fun _ => hrefl _
  | _ => exact (stepped_of_plain h rfl).safe

/-! ### Moves that change no role -/

/-- A safe change in which every node stays as it is, and the nodes of `R` lose nothing. -/
structure Calm (R : Set Node) (F F' : FakeFleet) : Prop extends Safe R F F' where
  stays : ∀ n, (F.node n).Stays (n ∈ R) (F'.node n)

/-- The moves that are calm: no node gets a source, its IO thread back, or the primary's
role, and no node of `R` is restarted, cloned or torn. -/
def Move.Calms (R : Set Node) : Move → Prop
  | .start n | .rebuilt n _ | .tear n _ => n ∉ R
  | .setup _ _ | .reroute _ _ | .promote _ | .repoint _ _ => False
  | _ => True

/-- The passing of time is calm. -/
theorem Stepped.calm (h : F.Stepped F') : F.Calm R F' where
  toSafe := h.safe
  stays n :=
    { rs := (h.node n).rs
      source := .inl (h.node n).source
      ioStopped := fun hio => (h.node n).ioStopped.trans hio
      executed := fun _ => (h.node n).executed
      partialTail := fun _ => (h.node n).partialTail }

/-- One node changes. -/
theorem Calm.update {b : FakeNode} (hsafe : F.Safe R F')
    (hnode : F'.node = Function.update F.node n b) (h : (F.node n).Stays (n ∈ R) b) :
    F.Calm R F' := by
  refine ⟨hsafe, fun m => ?_⟩
  rw [hnode]
  by_cases hm : m = n
  · subst hm
    rwa [Function.update_self]
  · rw [Function.update_of_ne hm]
    exact ⟨rfl, .inl rfl, id, fun _ => GtidSet.Subset.refl _, fun _ => rfl⟩

/-- A calm move. -/
theorem calm_of_move {m : Move} (h : F.move m = some F') (hm : m.Calms R) : F.Calm R F' := by
  have hrefl := GtidSet.Subset.refl
  -- Every move is safe for the replicas that it does not wipe.
  have hsafe : F.Safe R F' := by
    refine safe_of_move h fun n hn hwipes => ?_
    cases m with
    | start _ | rebuilt _ _ =>
      cases hwipes
      exact absurd hn hm
    -- A change of roles is no calm move.
    | promote _ | repoint _ _ => exact absurd hm id
    | _ => cases hwipes
  -- What calm says besides holds because a move writes one node, field by field.
  cases m with
  | setup _ _ | reroute _ _ | promote _ | repoint _ _ => exact absurd hm id
  | tear n g =>
    obtain ⟨-, ⟨⟩⟩ := Option.ite_none_right_eq_some.mp h
    exact .update hsafe rfl ⟨rfl, .inl rfl, id, fun _ => hrefl _, fun hn => absurd hn hm⟩
  | start n =>
    obtain ⟨-, ⟨⟩⟩ := Option.ite_none_right_eq_some.mp h
    exact .update hsafe rfl ⟨rfl, .inl rfl, id, fun _ => hrefl _, fun _ => rfl⟩
  | fence n =>
    obtain ⟨-, ⟨⟩⟩ := Option.ite_none_right_eq_some.mp h
    -- Killing mysqld and setting it read-only are two ways to fence.
    unfold fence at hsafe ⊢
    split at hsafe
    · rename_i hkill
      rw [if_pos hkill]
      exact .update hsafe rfl ⟨rfl, .inl rfl, id, fun _ => hrefl _, fun _ => rfl⟩
    · rename_i hkill
      rw [if_neg hkill]
      exact .update hsafe rfl ⟨rfl, .inl rfl, id, fun _ => hrefl _, fun _ => rfl⟩
  | killed n =>
    obtain ⟨-, ⟨⟩⟩ := Option.ite_none_right_eq_some.mp h
    exact .update hsafe rfl ⟨rfl, .inl rfl, id, fun _ => hrefl _, fun _ => rfl⟩
  | rebuild n donor =>
    obtain ⟨-, ⟨⟩⟩ := Option.ite_none_right_eq_some.mp h
    exact .update hsafe rfl ⟨rfl, .inr rfl, id, fun _ => hrefl _, fun _ => rfl⟩
  | rebuilt n donor =>
    obtain ⟨-, ⟨⟩⟩ := Option.ite_none_right_eq_some.mp h
    exact .update hsafe rfl ⟨rfl, .inr rfl, id, fun hn => absurd hn hm, fun _ => rfl⟩
  | stopIo n =>
    obtain ⟨-, ⟨⟩⟩ := Option.ite_none_right_eq_some.mp h
    exact .update hsafe rfl ⟨rfl, .inl rfl, fun _ => rfl, fun _ => hrefl _, fun _ => rfl⟩
  -- The moves that only run replication.
  | _ => exact (stepped_of_plain h rfl).calm

end

/-! ### Two copies -/

/-- What is acknowledged in a set, and what each node holds. -/
def ledger (rs : String) (F : FakeFleet) : Ledger Node Gtid where
  acked := {g | g ∈ F.acked rs}
  held n := {g | g ∈ (F.node n).held}

/-- In a semi-sync fleet a node takes writes only as a semi-sync source. -/
structure SemiSynced (F : FakeFleet) : Prop where
  semisync : F.semisync = true
  writes : ∀ n, (F.node n).superReadOnly = false → (F.node n).semisyncSource = true

/-- A safe change keeps a semi-sync fleet one. -/
theorem SemiSynced.of_safe {R : Set Node} (h : F.SemiSynced) (hs : F.Safe R F') :
    F'.SemiSynced where
  semisync := hs.semisync.trans h.semisync
  writes n hn := by
    rcases hs.writes n hn with hsource | ⟨hro, hsource⟩
    · exact hsource.trans h.semisync
    · exact hsource.trans (h.writes n hro)

/-- A new fleet with semi-sync is one. -/
theorem semiSynced_new (sets : List (String × List Node)) (spares : List (String × Node))
    (uuid : Node → String) : (new sets true spares uuid).SemiSynced :=
  ⟨rfl, fun _ hn => by cases hn⟩

/-- Then only replicas acknowledge. -/
theorem SemiSynced.acks (h : F.SemiSynced) (hack : F.Acks rs g) :
    ∃ r ∈ F.order, ∃ src, (F.node r).rs = rs ∧ (F.node r).source = some src ∧
      (F.node r).ioStopped = false ∧ g ∈ (F.node src).executed ∧ g ∈ (F.node r).retrieved ∧
        r ≠ src := by
  rcases hack with ⟨r, hr, src, hrs, hsource, hio, -, hexec, hret, hne⟩ | ⟨p, hro, hsemi⟩
  · exact ⟨r, hr, src, hrs, hsource, hio, hexec, hret, hne⟩
  · exact absurd ((h.writes p hro).symm.trans hsemi) (by decide)

/-- Two nodes hold what is acknowledged, while no node loses anything. -/
theorem kept_of_safe (h : F'.SemiSynced) (hs : F.Safe Set.univ F')
    (hkept : (F.ledger rs).Kept Ledger.doubled) : (F'.ledger rs).Kept Ledger.doubled := by
  have hretains : (F.ledger rs).Retains Set.univ (F'.ledger rs) := hs.held
  refine hkept.of_grows hretains.doubled fun g hg => ?_
  rcases hs.acked rs g hg with hg | hack
  · exact .inl hg
  · obtain ⟨r, -, src, -, -, -, hexec, hret, hne⟩ := h.acks hack
    refine .inr ⟨r, src, hne, ?_, ?_⟩
    · exact (F'.node r).mem_held.mpr (.inr hret)
    · exact (F'.node src).mem_held.mpr (.inl hexec)

/-- In a semi-sync fleet, while no node loses what it holds, each acknowledged transaction is
on two nodes: whatever is killed, hung, cut off, fenced, promoted or repointed. -/
theorem two_copies {sets : List (String × List Node)} {spares : List (String × Node)}
    {uuid : Node → String} (h : Reach move Retaining (new sets true spares uuid) F)
    (hg : g ∈ F.acked rs) :
    ∃ a b, a ≠ b ∧ g ∈ (F.node a).held ∧ g ∈ (F.node b).held := by
  have hinv : F.SemiSynced ∧ ∀ rs, (F.ledger rs).Kept Ledger.doubled :=
    h.invariant (I := fun F => F.SemiSynced ∧ ∀ rs, (F.ledger rs).Kept Ledger.doubled)
      ⟨semiSynced_new sets spares uuid, fun _ g hg => absurd hg (GtidSet.not_mem_empty g)⟩
      fun _ _ _ _ hi hok hm => by
        have hs := safe_of_move (R := Set.univ) hm fun _ _ _ => hok
        have hsemi := hi.1.of_safe hs
        exact ⟨hsemi, fun rs => kept_of_safe hsemi hs (hi.2 rs)⟩
  exact hinv.2 rs hg

/-- Two commits, then the primary is gone and a replica takes its place. -/
theorem two_copies_promoted :
    let F := Machine.run move (new [("rs0", ["a", "b", "c"])] true [] fun n => n)
      [.setup "rs0" "a", .write true, .step 1, .step 2, .kill "a", .promote "b",
        .repoint "c" (some "b"), .step 3]
    ∃ x y, x ≠ y ∧ (("a", ""), 2) ∈ (F.node x).held ∧ (("a", ""), 2) ∈ (F.node y).held := by
  refine two_copies (Machine.reach_run_of_obeys ?_ ?_) (?_ : _ ∈ FakeFleet.acked _ "rs0")
  all_goals decide +kernel

end FakeFleet

end DbGuard
