import DbGuard.GtidParse

/-!
# `DbGuard.Proofs.GtidAlgebra`: the algebra is exact and sets are canonical

A set stands for the transactions in its intervals (`transactions s.entries`).
`algebra_exact` says that the operations are those of sets, for all sets that the constructor
can build, and `canonical_forms` that each producer leaves the canonical form behind, so that
the structural `==` compares the transactions.
-/

set_option autoImplicit false

namespace DbGuard

namespace GtidSet

/-! ### The operations -/

/-- The transactions of a set are its members. -/
theorem mem_transactions (s : GtidSet) (g : Gtid) : g ∈ transactions s.entries ↔ g ∈ s := Iff.rfl

/-- The constructor keeps the transactions of its dict. -/
theorem transactions_build (m : Pieces) : transactions m.build.entries = transactions m.entries := by
  ext g
  rw [mem_transactions, Pieces.build, mem_build]
  rfl

/-- A difference has those of the first that the second has not. -/
theorem transactions_subtract (a b : GtidSet) :
    transactions (a.subtract b).entries = transactions a.entries \ transactions b.entries := by
  ext g
  exact mem_subtract a b g

/-- A union has those of both. -/
theorem transactions_union (a b : GtidSet) :
    transactions (a.union b).entries = transactions a.entries ∪ transactions b.entries := by
  ext g
  exact mem_union a b g

/-- An intersection has those that both have. -/
theorem transactions_intersection (a b : GtidSet) :
    transactions (a.intersection b).entries = transactions a.entries ∩ transactions b.entries := by
  ext g
  exact mem_intersection a b g

/-- Building a set, subtracting, uniting, intersecting, comparing and counting are those
of sets of transactions. -/
theorem algebra_exact :
    (∀ m : Pieces, transactions m.build.entries = transactions m.entries) ∧
    ∀ a b : GtidSet,
      transactions (a.subtract b).entries = transactions a.entries \ transactions b.entries ∧
      transactions (a.union b).entries = transactions a.entries ∪ transactions b.entries ∧
      transactions (a.intersection b).entries
        = transactions a.entries ∩ transactions b.entries ∧
      (a.isSubset b = true ↔ transactions a.entries ⊆ transactions b.entries) ∧
      a.count = ((transactions a.entries).ncard : Int) := by
  refine ⟨transactions_build, fun a b => ?_⟩
  exact ⟨transactions_subtract a b, transactions_union a b, transactions_intersection a b,
    isSubset_iff a b, count_eq_ncard a⟩

/-! ### The canonical form -/

/-- Keys strictly sorted, and for each key a list of intervals that is not empty, strictly
sorted, disjoint and not adjacent. -/
structure Canonical (m : Mapping) : Prop where
  keys : m.Pairwise fun a b => keyLe a.1 b.1 ∧ a.1 ≠ b.1
  nonempty : ∀ kv ∈ m, kv.2 ≠ []
  valid : ∀ kv ∈ m, ∀ iv ∈ kv.2, iv.1 ≤ iv.2
  apart : ∀ kv ∈ m, kv.2.Pairwise fun iv iv' => iv.2 + 1 < iv'.1

/-- The entries of a set are canonical. -/
theorem canonical_entries (s : GtidSet) : Canonical s.entries where
  keys := s.sorted
  nonempty kv hkv := (s.normal kv hkv).1
  valid kv hkv := (s.normal kv hkv).2.2
  apart kv hkv := (s.normal kv hkv).2.1

/-- `==` compares the transactions. -/
theorem eq_iff_transactions (a b : GtidSet) :
    a.eq b = true ↔ transactions a.entries = transactions b.entries := by
  rw [eq_iff]
  constructor
  · intro h
    rw [h]
  · intro h
    refine ext_mem fun g => ?_
    rw [← mem_transactions, h]
    exact Iff.rfl

/-- What the constructor, the parser and the operations make is canonical. Two sets are then
equal if and only if they hold the same transactions, and equal sets have one text and one
hash. -/
theorem canonical_forms :
    (∀ m : Pieces, Canonical m.build.entries) ∧
    (∀ text : String, ∀ s ∈ (parse text).toOption, Canonical s.entries) ∧
    ∀ a b : GtidSet,
      (Canonical (a.union b).entries ∧ Canonical (a.subtract b).entries ∧
        Canonical (a.intersection b).entries) ∧
      (a.eq b = true ↔ transactions a.entries = transactions b.entries) ∧
      (a.eq b = true → a.toText = b.toText ∧
        ∀ {α : Type} (tupleHash : Mapping → α), a.hash tupleHash = b.hash tupleHash) := by
  refine ⟨fun m => canonical_entries _, fun text s _ => canonical_entries s, fun a b => ?_⟩
  refine ⟨⟨canonical_entries _, canonical_entries _, canonical_entries _⟩,
    eq_iff_transactions a b, fun h => ?_⟩
  have heq : a = b := (eq_iff a b).mp h
  subst heq
  exact ⟨rfl, fun _ => rfl⟩

end GtidSet

end DbGuard
