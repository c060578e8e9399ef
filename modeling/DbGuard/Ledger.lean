import Mathlib.Data.Set.Lattice

/-!
# `DbGuard.Ledger`: acknowledged entries and their copies

Several nodes hold entries of one log, and some entries have been acknowledged to a client. A
`Ledger` is this and nothing else: it knows no order of the entries, no roles and no messages.

What survives is a question of copies. `Kept P` says that each acknowledged entry is in `P`, a
set that depends on who holds what. `doubled` asks for copies on two nodes, so that any one
node can go. `heldBy R` asks for a copy within a group `R`. Both only grow when the nodes lose
nothing, so `Kept.of_grows` carries either over a step in which an entry is acknowledged only
when it has its copies. `Kept.of_leader` is how a group chooses a successor.
-/

set_option autoImplicit false

/-- What has been acknowledged, and which entries each node holds. -/
structure Ledger (ν τ : Type*) where
  acked : Set τ
  held : ν → Set τ

namespace Ledger

variable {ν τ : Type*} {L L' : Ledger ν τ} {R : Set ν}

/-- The entries that some node of `R` holds. -/
def heldBy (R : Set ν) (L : Ledger ν τ) : Set τ := {x | ∃ n ∈ R, x ∈ L.held n}

/-- The entries that two nodes hold. -/
def doubled (L : Ledger ν τ) : Set τ := {x | ∃ a b, a ≠ b ∧ x ∈ L.held a ∧ x ∈ L.held b}

/-- Each acknowledged entry is in `P`. -/
def Kept (P : Ledger ν τ → Set τ) (L : Ledger ν τ) : Prop := L.acked ⊆ P L

/-- No node of `R` loses an entry. -/
def Retains (R : Set ν) (L L' : Ledger ν τ) : Prop := ∀ n ∈ R, L.held n ⊆ L'.held n

/-- What the nodes of `R` hold they hold later. -/
theorem Retains.heldBy (h : L.Retains R L') : L.heldBy R ⊆ L'.heldBy R :=
  fun _ ⟨n, hn, hx⟩ => ⟨n, hn, h n hn hx⟩

/-- What two nodes hold two nodes hold later. -/
theorem Retains.doubled (h : L.Retains Set.univ L') : L.doubled ⊆ L'.doubled :=
  fun _ ⟨a, b, hab, ha, hb⟩ => ⟨a, b, hab, h a trivial ha, h b trivial hb⟩

/-- A step that acknowledges only entries with their copies. -/
theorem Kept.of_grows {P : Ledger ν τ → Set τ} (h : L.Kept P) (hP : P L ⊆ P L')
    (hack : L'.acked ⊆ L.acked ∪ P L') : L'.Kept P := by
  intro x hx
  rcases hack hx with hx | hx
  · exact hP (h hx)
  · exact hx

/-- A node that holds what each node of the group holds, holds every acknowledged entry. -/
theorem Kept.of_leader (h : L.Kept (Ledger.heldBy R)) {w : Set τ}
    (hw : ∀ n ∈ R, L.held n ⊆ w) : L.acked ⊆ w := by
  intro x hx
  obtain ⟨n, hn, hx⟩ := h hx
  exact hw n hn hx

end Ledger
