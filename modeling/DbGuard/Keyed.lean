import Mathlib.Data.Finset.Card
import Mathlib.Data.List.Nodup
import Mathlib.Data.List.Sort
import Mathlib.Order.Lattice

/-!
# `DbGuard.Keyed`: tables in the order of their keys

`Keyed K R` is a finite table: rows of type `R`, each under its own key, kept in the order
of the keys. The order of the keys is a field of the structure, so two rows under one key
cannot be built.

`(k, r) ∈ t` says that `r` is the row under `k`. Each operation has one membership lemma
(`mem_put`, `mem_keep`), which says which rows it leaves, and proofs about a table use
these and `Keyed.unique`. `keys_eq_of_length_le` compares two tables by counting: a table
whose keys are all keys of another one, and which has as many rows, misses none of them.
-/

set_option autoImplicit false

/-- A table with a row of type `R` under each of its keys. -/
structure Keyed (K R : Type) [LinearOrder K] where
  rows : List (K × R)
  sorted : rows.Pairwise (fun x y => x.1 < y.1)

namespace Keyed

variable {K R S : Type} [LinearOrder K]

instance : Membership (K × R) (Keyed K R) := ⟨fun t x => x ∈ t.rows⟩

instance [DecidableEq R] (x : K × R) (t : Keyed K R) : Decidable (x ∈ t) :=
  inferInstanceAs (Decidable (x ∈ t.rows))

/-- A table with no rows. -/
def empty : Keyed K R := ⟨[], .nil⟩

/-- The keys, in order. -/
def keys (t : Keyed K R) : List K := t.rows.map (·.1)

/-- The rows that meet `p`. -/
def keep (t : Keyed K R) (p : K → R → Bool) : Keyed K R :=
  ⟨t.rows.filter fun x => p x.1 x.2, t.sorted.filter _⟩

/-- The table without the row under `k`. -/
def erase (t : Keyed K R) (k : K) : Keyed K R := t.keep fun k' _ => k' ≠ k

/-- The table with `r` under `k`, instead of what was there. -/
def put (t : Keyed K R) (k : K) (r : R) : Keyed K R where
  rows := t.rows.filter (·.1 < k) ++ (k, r) :: t.rows.filter (k < ·.1)
  sorted := by
    rw [List.pairwise_append, List.pairwise_cons]
    refine ⟨t.sorted.filter _, ⟨?_, t.sorted.filter _⟩, ?_⟩
    · intro x hx
      simpa using (List.mem_filter.mp hx).2
    · intro x hx y hy
      have hxk : x.1 < k := by simpa using (List.mem_filter.mp hx).2
      rcases List.mem_cons.mp hy with rfl | hy
      · exact hxk
      · exact hxk.trans (by simpa using (List.mem_filter.mp hy).2)

/-- The row under `k`. -/
def find? (t : Keyed K R) (k : K) : Option R := (t.rows.find? (·.1 = k)).map (·.2)

/-- The last row. -/
def last? (t : Keyed K R) : Option (K × R) := t.rows.getLast?

variable {t : Keyed K R} {k k' : K} {r r' : R}

/-! ### Membership -/

/-- The rows of a table are its members. -/
theorem mem_rows {x : K × R} : x ∈ t.rows ↔ x ∈ t := Iff.rfl

/-- The empty table has no rows. -/
@[simp] theorem notMem_empty (x : K × R) : x ∉ (empty : Keyed K R) := List.not_mem_nil

/-- There is one row under a key. -/
theorem unique (h : (k, r) ∈ t) (h' : (k, r') ∈ t) : r = r' := by
  by_contra hne
  have hrow : (k, r) ≠ (k, r') := fun heq => hne (Prod.mk.inj heq).2
  rcases List.Pairwise.forall_of_forall_of_flip
      (R := fun x y : K × R => x = y ∨ x.1 ≠ y.1) (fun x _ => .inl rfl)
      (t.sorted.imp fun h => .inr (ne_of_lt h)) (t.sorted.imp fun h => .inr (ne_of_gt h))
      h h' with heq | hkey
  · exact hrow heq
  · exact hkey rfl

/-- `keep` drops the rows that fail the test. -/
@[simp] theorem mem_keep {p : K → R → Bool} :
    (k, r) ∈ t.keep p ↔ (k, r) ∈ t ∧ p k r = true := List.mem_filter

/-- `erase` drops the row of one key. -/
@[simp] theorem mem_erase : (k', r') ∈ t.erase k ↔ (k', r') ∈ t ∧ k' ≠ k := by
  simp [erase]

/-- `put` replaces the row of its key. -/
@[simp] theorem mem_put :
    (k', r') ∈ t.put k r ↔ (k' = k ∧ r' = r) ∨ (k' ≠ k ∧ (k', r') ∈ t) := by
  show (k', r') ∈ t.rows.filter _ ++ (k, r) :: t.rows.filter _ ↔ _
  simp only [List.mem_append, List.mem_cons, List.mem_filter, Prod.mk.injEq, decide_eq_true_eq,
    mem_rows]
  constructor
  · rintro (⟨h, hlt⟩ | heq | ⟨h, hlt⟩)
    · exact .inr ⟨ne_of_lt hlt, h⟩
    · exact .inl heq
    · exact .inr ⟨ne_of_gt hlt, h⟩
  · rintro (heq | ⟨hne, h⟩)
    · exact .inr (.inl heq)
    · rcases lt_or_gt_of_ne hne with hlt | hgt
      · exact .inl ⟨h, hlt⟩
      · exact .inr (.inr ⟨h, hgt⟩)

/-- The keys are those of the rows. -/
theorem mem_keys : k ∈ t.keys ↔ ∃ r, (k, r) ∈ t := by
  simp [keys, mem_rows]

/-- The key of a row is a key. -/
theorem key_mem (h : (k, r) ∈ t) : k ∈ t.keys := mem_keys.mpr ⟨r, h⟩

/-- No key stands twice. -/
theorem keys_nodup (t : Keyed K R) : t.keys.Nodup := by
  rw [keys, List.nodup_iff_pairwise_ne, List.pairwise_map]
  exact t.sorted.imp fun h => ne_of_lt h

/-- `find?` gives the row of the key. -/
theorem find?_eq_some : t.find? k = some r ↔ (k, r) ∈ t := by
  constructor
  · intro h
    obtain ⟨x, hx, rfl⟩ := Option.map_eq_some_iff.mp h
    have hk : x.1 = k := by simpa using List.find?_some hx
    subst hk
    exact List.mem_of_find?_eq_some hx
  · intro h
    cases hf : t.rows.find? (·.1 = k) with
    | none => exact absurd (List.find?_eq_none.mp hf _ h) (by simp)
    | some x =>
      have hk : x.1 = k := by simpa using List.find?_some hf
      have hx : (k, x.2) ∈ t := hk ▸ List.mem_of_find?_eq_some hf
      simp [find?, hf, unique hx h]

/-- Tables with the same rows are the same lists. -/
theorem rows_eq {u : Keyed K R} (h : ∀ k r, (k, r) ∈ t ↔ (k, r) ∈ u) : t.rows = u.rows := by
  have hanti : Std.Antisymm fun x y : K × R => x.1 < y.1 :=
    ⟨fun x y hxy hyx => absurd (hxy.trans hyx) (lt_irrefl _)⟩
  have hirrefl : Std.Irrefl fun x y : K × R => x.1 < y.1 := ⟨fun x => lt_irrefl _⟩
  exact t.sorted.eq_of_mem_iff u.sorted fun x => h x.1 x.2

/-! ### Order and size -/

/-- The last row has the largest key. -/
theorem le_of_last? {x : K × R} (h : t.last? = some x) (hk : (k, r) ∈ t) : k ≤ x.1 := by
  obtain ⟨l, hl⟩ := List.getLast?_eq_some_iff.mp h
  have hsorted := t.sorted
  rw [hl, List.pairwise_append] at hsorted
  have hmem : (k, r) ∈ l ++ [x] := hl ▸ mem_rows.mpr hk
  rcases List.mem_append.mp hmem with hmem | hmem
  · exact le_of_lt (hsorted.2.2 _ hmem x (List.mem_singleton_self x))
  · exact le_of_eq (congrArg Prod.fst (List.mem_singleton.mp hmem))

/-- A table without a last row is empty. -/
theorem notMem_of_last?_eq_none (h : t.last? = none) (x : K × R) : x ∉ t := by
  intro hx
  rw [last?, List.getLast?_eq_none_iff] at h
  exact List.not_mem_nil (h ▸ mem_rows.mpr hx)

/-- The first row that meets a condition on the keys has the smallest key of those. -/
theorem le_of_head {p : K → Bool} {x : K × R} (h : t.rows.find? (fun y => p y.1) = some x)
    (hk : (k, r) ∈ t) (hp : p k = true) : x.1 ≤ k := by
  obtain ⟨_, l, l', hl, hfirst⟩ := List.find?_eq_some_iff_append.mp h
  have hsorted := t.sorted
  rw [hl, List.pairwise_append, List.pairwise_cons] at hsorted
  have hmem : (k, r) ∈ l ++ x :: l' := hl ▸ mem_rows.mpr hk
  rcases List.mem_append.mp hmem with hmem | hmem
  · exact absurd hp (by simpa using hfirst _ hmem)
  · rcases List.mem_cons.mp hmem with heq | hmem
    · rw [← heq]
    · exact le_of_lt (hsorted.2.1.1 _ hmem)

/-- A table whose keys are all keys of another one, and which has as many rows, has all the
keys of the other. -/
theorem keys_eq_of_length_le {u : Keyed K S} (hsub : ∀ k ∈ t.keys, k ∈ u.keys)
    (hlen : u.rows.length ≤ t.rows.length) (hk : k ∈ u.keys) : k ∈ t.keys := by
  have hcard : u.keys.toFinset.card ≤ t.keys.toFinset.card := by
    rw [List.toFinset_card_of_nodup u.keys_nodup, List.toFinset_card_of_nodup t.keys_nodup]
    simpa [keys] using hlen
  have heq : t.keys.toFinset = u.keys.toFinset :=
    Finset.eq_of_subset_of_card_le (fun k hk => by simpa using hsub k (by simpa using hk)) hcard
  have hmem : k ∈ u.keys.toFinset := by simpa using hk
  rw [← heq] at hmem
  simpa using hmem

end Keyed
