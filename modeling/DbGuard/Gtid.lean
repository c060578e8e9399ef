import Mathlib.Data.String.Basic
import DbGuard.Interval

/-!
# `DbGuard.Gtid`: GTID sets

The algebra of `dbguard/gtid.py`. A `GtidSet` maps a key, a uuid with a tag, to a normal
list of intervals. The canonical form of the Python class is part of the type: the keys are
sorted, no key maps to the empty list, and every list is normal. So an operation here
cannot leave an unmerged set behind, and the constructor (`GtidSet.build`) has to be given
intervals that `_normalize` does not reject.

`(k, n) ∈ s` says that transaction `n` of key `k` is in the set. `mem_union`, `mem_subtract`
and `mem_intersection` give the operations their meaning, and `isSubset_iff` is the fact that
the failover decisions rest on. `ext_mem` says that a set has one representation, so the
structural `==` is the equality of sets, and `count_eq_ncard` that counts are exact.

`GtidText` is a GTID set as JSON carries it: a text that `GtidSet.parse` reads as a set, or
one that it rejects.
-/

set_option autoImplicit false

namespace DbGuard

/-- A source uuid and a tag, empty for an untagged GTID. -/
abbrev Key := String × String

instance : LawfulBEq Key := inferInstance

/-- One transaction. -/
abbrev Gtid := Key × Int

/-- The order of Python tuples of strings. -/
abbrev keyLe (a b : Key) : Prop := a.1 < b.1 ∨ (a.1 = b.1 ∧ a.2 ≤ b.2)

instance : Std.Total keyLe := ⟨fun a b => by
  rcases lt_trichotomy a.1 b.1 with h | h | h
  · exact Or.inl (Or.inl h)
  · rcases le_total a.2 b.2 with h' | h'
    · exact Or.inl (Or.inr ⟨h, h'⟩)
    · exact Or.inr (Or.inr ⟨h.symm, h'⟩)
  · exact Or.inr (Or.inl h)⟩

instance : IsTrans Key keyLe := ⟨fun a b c hab hbc => by
  rcases hab with h | ⟨h, h'⟩ <;> rcases hbc with g | ⟨g, g'⟩
  · exact Or.inl (lt_trans h g)
  · exact Or.inl (g ▸ h)
  · exact Or.inl (h ▸ g)
  · exact Or.inr ⟨h.trans g, le_trans h' g'⟩⟩

/-- Keys are ordered by uuid and tag. -/
theorem keyLe_antisymm {a b : Key} (h : keyLe a b) (h' : keyLe b a) : a = b := by
  rcases h with h | ⟨h, g⟩ <;> rcases h' with h' | ⟨h', g'⟩
  · exact absurd h' (lt_asymm h)
  · exact absurd (h' ▸ h) (lt_irrefl _)
  · exact absurd (h ▸ h') (lt_irrefl _)
  · exact Prod.ext h (le_antisymm g g')

/-- A dict from keys to intervals. -/
abbrev Mapping := List (Key × List (Int × Int))

/-- The order of `dict(sorted(m.items()))`. Keys of a dict are distinct, so the intervals
are never compared. -/
abbrev entryLe (a b : Key × List (Int × Int)) : Prop := keyLe a.1 b.1

instance : Std.Total entryLe := ⟨fun a b => (inferInstance : Std.Total keyLe).total a.1 b.1⟩

instance : IsTrans (Key × List (Int × Int)) entryLe :=
  ⟨fun a b c => (inferInstance : IsTrans Key keyLe).trans a.1 b.1 c.1⟩

/-- `class GtidSet`, in the form its constructor leaves it in. -/
structure GtidSet where
  entries : Mapping
  sorted : entries.Pairwise fun a b => keyLe a.1 b.1 ∧ a.1 ≠ b.1
  normal : ∀ kv ∈ entries, kv.2 ≠ [] ∧ Interval.Normal kv.2
deriving DecidableEq

namespace GtidSet

/-- A transaction of the set. -/
def Mem (s : GtidSet) (g : Gtid) : Prop := ∃ kv ∈ s.entries, kv.1 = g.1 ∧ Interval.Mem g.2 kv.2

instance : Membership Gtid GtidSet := ⟨Mem⟩

instance (g : Gtid) (s : GtidSet) : Decidable (g ∈ s) :=
  inferInstanceAs (Decidable (∃ kv ∈ s.entries, _ ∧ _))

/-- Membership is that in the intervals of the key. -/
theorem mem_def (s : GtidSet) (g : Gtid) :
    g ∈ s ↔ ∃ kv ∈ s.entries, kv.1 = g.1 ∧ Interval.Mem g.2 kv.2 := Iff.rfl

instance : HasSubset GtidSet := ⟨fun a b => ∀ g, g ∈ a → g ∈ b⟩

/-- Inclusion, transaction by transaction. -/
theorem subset_def {a b : GtidSet} : a ⊆ b ↔ ∀ g, g ∈ a → g ∈ b := Iff.rfl

/-- A set is part of itself. -/
theorem Subset.refl (a : GtidSet) : a ⊆ a := fun _ h => h

/-- Inclusion is transitive. -/
theorem Subset.trans {a b c : GtidSet} (h : a ⊆ b) (h' : b ⊆ c) : a ⊆ c :=
  fun g hg => h' g (h g hg)

/-- `GtidSet()`. -/
def empty : GtidSet := ⟨[], List.Pairwise.nil, by simp⟩

instance : Inhabited GtidSet := ⟨empty⟩

/-- The empty set has no transaction. -/
@[simp] theorem not_mem_empty (g : Gtid) : g ∉ empty := by
  rintro ⟨kv, hkv, _⟩
  exact absurd hkv (List.not_mem_nil)

/-! ### The constructor -/

/-- Normalize every value of a dict and drop the empty ones. -/
def normalized (m : Mapping) : Mapping :=
  (m.map fun kv => (kv.1, Interval.normalize kv.2)).filter fun kv => kv.2 ≠ []

/-- `GtidSet.__init__` on a dict (one entry per key) whose intervals `_normalize` accepts. -/
def build (m : Mapping) (hv : ∀ kv ∈ m, Interval.Valid kv.2) (hk : (m.map Prod.fst).Nodup) :
    GtidSet where
  entries := (normalized m).insertionSort entryLe
  sorted := by
    have hsort := List.pairwise_insertionSort entryLe (normalized m)
    have hnodup : ((normalized m).map Prod.fst).Nodup := by
      refine List.Nodup.sublist ?_ hk
      have h : (m.map fun kv => (kv.1, Interval.normalize kv.2)).map Prod.fst
          = m.map Prod.fst := by simp [List.map_map, Function.comp_def]
      rw [← h]
      exact List.Sublist.map _ List.filter_sublist
    have hperm := List.perm_insertionSort entryLe (normalized m)
    have hne := (hperm.map Prod.fst).nodup_iff.mpr hnodup
    rw [List.Nodup, List.pairwise_map] at hne
    exact hsort.and hne
  normal := by
    intro kv hkv
    have hmem := (List.perm_insertionSort entryLe (normalized m)).mem_iff.mp hkv
    obtain ⟨hmap, hne⟩ := List.mem_filter.mp hmem
    obtain ⟨kv', hkv', rfl⟩ := List.mem_map.mp hmap
    exact ⟨by simpa using hne, Interval.normal_normalize (hv kv' hkv')⟩

/-- The constructor keeps the transactions of the dict. -/
theorem mem_build {m : Mapping} {hv : ∀ kv ∈ m, Interval.Valid kv.2}
    {hk : (m.map Prod.fst).Nodup} (g : Gtid) :
    g ∈ build m hv hk ↔ ∃ kv ∈ m, kv.1 = g.1 ∧ Interval.Mem g.2 kv.2 := by
  have hperm := List.perm_insertionSort entryLe (normalized m)
  constructor
  · rintro ⟨kv, hkv, hkey, hmem⟩
    obtain ⟨hmap, _⟩ := List.mem_filter.mp (hperm.mem_iff.mp hkv)
    obtain ⟨kv', hkv', rfl⟩ := List.mem_map.mp hmap
    exact ⟨kv', hkv', hkey, (Interval.mem_normalize (hv kv' hkv') g.2).mp hmem⟩
  · rintro ⟨kv, hkv, hkey, hmem⟩
    have hnorm := (Interval.mem_normalize (hv kv hkv) g.2).mpr hmem
    refine ⟨(kv.1, Interval.normalize kv.2), hperm.mem_iff.mpr ?_, hkey, hnorm⟩
    refine List.mem_filter.mpr ⟨List.mem_map.mpr ⟨kv, hkv, rfl⟩, ?_⟩
    have hne : Interval.normalize kv.2 ≠ [] := fun h => by
      rw [h] at hnorm
      exact Interval.not_mem_nil _ hnorm
    simpa using hne

/-! ### Lookup -/

/-- `self._m.get(k, ())`. -/
def get (s : GtidSet) (k : Key) : List (Int × Int) :=
  match s.entries.find? fun kv => kv.1 = k with
  | some kv => kv.2
  | none => []

/-- No key stands twice. -/
theorem keys_nodup (s : GtidSet) : (s.entries.map Prod.fst).Nodup := by
  rw [List.Nodup, List.pairwise_map]
  exact s.sorted.imp fun h => h.2

/-- The entry of a key is unique. -/
theorem entry_unique {s : GtidSet} {kv kv' : Key × List (Int × Int)} (h : kv ∈ s.entries)
    (h' : kv' ∈ s.entries) (hk : kv.1 = kv'.1) : kv = kv' :=
  List.inj_on_of_nodup_map s.keys_nodup h h' hk

/-- What the set has under a key. -/
theorem mem_get {s : GtidSet} {k : Key} {n : Int} :
    Interval.Mem n (s.get k) ↔ (k, n) ∈ s := by
  rw [get]
  constructor
  · intro h
    split at h
    · rename_i kv hfind
      exact ⟨kv, List.mem_of_find?_eq_some hfind, by simpa using List.find?_some hfind, h⟩
    · exact absurd h (Interval.not_mem_nil n)
  · rintro ⟨kv, hkv, hkey, hmem⟩
    split
    · rename_i kv' hfind
      have hkey' : kv'.1 = k := by simpa using List.find?_some hfind
      have := entry_unique hkv (List.mem_of_find?_eq_some hfind) (hkey.trans hkey'.symm)
      exact this ▸ hmem
    · rename_i hfind
      exact absurd hkey (by simpa using List.find?_eq_none.mp hfind kv hkv)

/-- The intervals under a key are in normal form. -/
theorem normal_get (s : GtidSet) (k : Key) : Interval.Normal (s.get k) := by
  rw [get]
  split
  · rename_i kv hfind
    exact (s.normal kv (List.mem_of_find?_eq_some hfind)).2
  · exact Interval.normal_nil

/-! ### The algebra -/

/-- `count`, the number of transactions. -/
def count (s : GtidSet) : Int := (s.entries.map fun kv => Interval.count kv.2).sum

/-- `is_empty`. -/
def isEmpty (s : GtidSet) : Bool := s.entries.isEmpty

/-- The keys of either set. -/
def unionKeys (a b : GtidSet) : List Key :=
  a.entries.map Prod.fst ++ (b.entries.map Prod.fst).filter
    fun k => k ∉ a.entries.map Prod.fst

/-- `union`, `a | b`. -/
def union (a b : GtidSet) : GtidSet :=
  build ((unionKeys a b).map fun k => (k, a.get k ++ b.get k))
    (by
      intro kv hkv
      obtain ⟨k, _, rfl⟩ := List.mem_map.mp hkv
      exact (a.normal_get k).2.append (b.normal_get k).2)
    (by
      rw [List.map_map]
      have h : (Prod.fst ∘ fun k => (k, a.get k ++ b.get k)) = id := rfl
      rw [h, List.map_id, unionKeys]
      refine a.keys_nodup.append (b.keys_nodup.filter _) ?_
      intro k hk hk'
      have := (List.mem_filter.mp hk').2
      simp only [decide_eq_true_eq] at this
      exact this hk)

/-- `subtract`, `a - b`. -/
def subtract (a b : GtidSet) : GtidSet :=
  build (a.entries.map fun kv => (kv.1, Interval.subtract kv.2 (b.get kv.1)))
    (by
      intro kv hkv
      obtain ⟨kv', _, rfl⟩ := List.mem_map.mp hkv
      exact Interval.valid_subtract _ _)
    (by simpa [List.map_map, Function.comp_def] using a.keys_nodup)

/-- `intersection`, `a & b`. -/
def intersection (a b : GtidSet) : GtidSet :=
  build ((a.entries.filter fun kv => kv.1 ∈ b.entries.map Prod.fst).map
      fun kv => (kv.1, Interval.intersect kv.2 (b.get kv.1)))
    (by
      intro kv hkv
      obtain ⟨kv', _, rfl⟩ := List.mem_map.mp hkv
      exact Interval.valid_intersect _ _)
    (by
      rw [List.map_map]
      exact (List.filter_sublist.map Prod.fst).nodup a.keys_nodup)

/-- `is_subset`. -/
def isSubset (a b : GtidSet) : Bool := (a.subtract b).isEmpty

instance : Union GtidSet := ⟨union⟩
instance : SDiff GtidSet := ⟨subtract⟩

/-- A key with a transaction of either set is among the keys of their union. -/
theorem mem_unionKeys {a b : GtidSet} {k : Key} {n : Int}
    (h : (k, n) ∈ a ∨ (k, n) ∈ b) : k ∈ unionKeys a b := by
  rw [unionKeys, List.mem_append]
  by_cases ha : k ∈ a.entries.map Prod.fst
  · exact Or.inl ha
  · right
    refine List.mem_filter.mpr ⟨?_, by simpa using ha⟩
    rcases h with ⟨kv, hkv, hkey, _⟩ | ⟨kv, hkv, hkey, _⟩
    · exact absurd (List.mem_map.mpr ⟨kv, hkv, hkey⟩) ha
    · exact List.mem_map.mpr ⟨kv, hkv, hkey⟩

/-- The transactions of a union. -/
@[simp] theorem mem_union (a b : GtidSet) (g : Gtid) : g ∈ a ∪ b ↔ g ∈ a ∨ g ∈ b := by
  change g ∈ union a b ↔ _
  rw [union, mem_build]
  constructor
  · rintro ⟨kv, hkv, hkey, hmem⟩
    obtain ⟨k, _, rfl⟩ := List.mem_map.mp hkv
    simp only at hkey hmem
    subst hkey
    rw [Interval.mem_append, mem_get, mem_get] at hmem
    exact hmem
  · intro h
    refine ⟨(g.1, a.get g.1 ++ b.get g.1), ?_, rfl, ?_⟩
    · exact List.mem_map.mpr ⟨g.1, mem_unionKeys (n := g.2) h, rfl⟩
    · rw [Interval.mem_append, mem_get, mem_get]
      exact h

/-- The transactions of a difference. -/
@[simp] theorem mem_subtract (a b : GtidSet) (g : Gtid) : g ∈ a \ b ↔ g ∈ a ∧ g ∉ b := by
  change g ∈ subtract a b ↔ _
  rw [subtract, mem_build]
  constructor
  · rintro ⟨kv, hkv, hkey, hmem⟩
    obtain ⟨kv', hkv', rfl⟩ := List.mem_map.mp hkv
    simp only at hkey hmem
    rw [Interval.mem_subtract _ _ _ (a.normal kv' hkv').2 (b.normal_get _), mem_get,
      hkey] at hmem
    exact ⟨⟨kv', hkv', hkey, hmem.1⟩, hmem.2⟩
  · rintro ⟨⟨kv, hkv, hkey, hmem⟩, hno⟩
    refine ⟨_, List.mem_map.mpr ⟨kv, hkv, rfl⟩, hkey, ?_⟩
    rw [Interval.mem_subtract _ _ _ (a.normal kv hkv).2 (b.normal_get _), mem_get, hkey]
    exact ⟨hmem, hno⟩

/-- A set without keys is a set without transactions. -/
theorem isEmpty_iff (s : GtidSet) : s.isEmpty = true ↔ ∀ g, g ∉ s := by
  rw [isEmpty, List.isEmpty_iff]
  constructor
  · rintro h g ⟨kv, hkv, _⟩
    rw [h] at hkv
    exact absurd hkv List.not_mem_nil
  · intro h
    by_contra hne
    obtain ⟨kv, hkv⟩ := List.exists_mem_of_ne_nil _ hne
    obtain ⟨n, hn⟩ := (s.normal kv hkv).2.exists_mem (s.normal kv hkv).1
    exact h (kv.1, n) ⟨kv, hkv, rfl, hn⟩

/-- `is_subset` is inclusion. -/
@[simp] theorem isSubset_iff (a b : GtidSet) : a.isSubset b = true ↔ a ⊆ b := by
  rw [isSubset, isEmpty_iff]
  constructor
  · intro h g hg
    by_contra hno
    exact h g ((mem_subtract a b g).mpr ⟨hg, hno⟩)
  · intro h g hg
    obtain ⟨hga, hgb⟩ := (mem_subtract a b g).mp hg
    exact hgb (h g hga)

/-- The transactions of an intersection. -/
@[simp] theorem mem_intersection (a b : GtidSet) (g : Gtid) :
    g ∈ a.intersection b ↔ g ∈ a ∧ g ∈ b := by
  have hpiece : ∀ kv ∈ a.entries,
      (Interval.Mem g.2 (Interval.intersect kv.2 (b.get kv.1)) ↔
        Interval.Mem g.2 kv.2 ∧ (kv.1, g.2) ∈ b) := by
    intro kv hkv
    rw [Interval.mem_intersect _ _ _ (a.normal kv hkv).2 (b.normal_get _), mem_get]
  rw [intersection, mem_build]
  constructor
  · rintro ⟨kv, hkv, hkey, hmem⟩
    obtain ⟨kv', hkv', rfl⟩ := List.mem_map.mp hkv
    have ha := (List.mem_filter.mp hkv').1
    have hb := (hpiece kv' ha).mp hmem
    simp only at hkey
    refine ⟨⟨kv', ha, hkey, hb.1⟩, ?_⟩
    rw [hkey] at hb
    exact hb.2
  · rintro ⟨⟨kv, hkv, hkey, hmem⟩, hb⟩
    refine ⟨_, List.mem_map.mpr ⟨kv, List.mem_filter.mpr ⟨hkv, ?_⟩, rfl⟩, hkey, ?_⟩
    · -- the key is one of the other set
      obtain ⟨kv', hkv', hkey', -⟩ := hb
      rw [decide_eq_true_eq, hkey, ← hkey']
      exact List.mem_map.mpr ⟨kv', hkv', rfl⟩
    · have hb' : (kv.1, g.2) ∈ b := by
        rw [hkey]
        exact hb
      exact (hpiece kv hkv).mpr ⟨hmem, hb'⟩

/-! ### A set has one representation -/

/-- `__eq__`, the equality of two dicts. -/
def eq (a b : GtidSet) : Bool :=
  a.entries.length == b.entries.length && a.entries.all fun kv =>
    (b.entries.find? fun kv' => kv'.1 = kv.1).any fun kv' => kv.2 == kv'.2

/-- `__hash__`, with the hash of a tuple of items as a parameter. -/
def hash {α : Type} (tupleHash : Mapping → α) (s : GtidSet) : α := tupleHash s.entries

/-- An entry of a set is an entry of every set with the same transactions. -/
theorem mem_entries_of_mem_iff {a b : GtidSet} (h : ∀ g, g ∈ a ↔ g ∈ b)
    {kv : Key × List (Int × Int)} (hkv : kv ∈ a.entries) : kv ∈ b.entries := by
  obtain ⟨hne, hnorm⟩ := a.normal kv hkv
  obtain ⟨n, hn⟩ := hnorm.exists_mem hne
  obtain ⟨kv', hkv', hkey, -⟩ := (h (kv.1, n)).mp ⟨kv, hkv, rfl, hn⟩
  have hget : ∀ m, Interval.Mem m kv.2 ↔ Interval.Mem m kv'.2 := by
    intro m
    constructor
    · intro hm
      obtain ⟨kv'', hkv'', hkey'', hm'⟩ := (h (kv.1, m)).mp ⟨kv, hkv, rfl, hm⟩
      rwa [entry_unique hkv'' hkv' (hkey''.trans hkey.symm)] at hm'
    · intro hm
      obtain ⟨kv'', hkv'', hkey'', hm'⟩ := (h (kv.1, m)).mpr ⟨kv', hkv', hkey, hm⟩
      rwa [entry_unique hkv'' hkv hkey''] at hm'
  have hval : kv.2 = kv'.2 := hnorm.ext (b.normal kv' hkv').2 hget
  have heq : kv = kv' := Prod.ext hkey.symm hval
  exact heq ▸ hkv'

/-- No entry stands twice. -/
theorem entries_nodup (s : GtidSet) : s.entries.Nodup := List.Nodup.of_map _ s.keys_nodup

/-- Sets with the same entries in some order are equal. -/
theorem eq_of_mem_entries {a b : GtidSet} (h : ∀ kv, kv ∈ a.entries ↔ kv ∈ b.entries) :
    a = b := by
  have hperm : a.entries.Perm b.entries :=
    (List.perm_ext_iff_of_nodup a.entries_nodup b.entries_nodup).mpr h
  have hentries : a.entries = b.entries := by
    refine hperm.eq_of_pairwise ?_ a.sorted b.sorted
    intro x y _ _ hxy hyx
    exact absurd (keyLe_antisymm hxy.1 hyx.1) hxy.2
  cases a
  cases b
  cases hentries
  rfl

/-- Sets with the same transactions are equal. -/
theorem ext_mem {a b : GtidSet} (h : ∀ g, g ∈ a ↔ g ∈ b) : a = b :=
  eq_of_mem_entries fun _ =>
    ⟨mem_entries_of_mem_iff h, mem_entries_of_mem_iff fun g => (h g).symm⟩

/-- Two sets with the same transactions are equal. -/
theorem Subset.antisymm {a b : GtidSet} (h : a ⊆ b) (h' : b ⊆ a) : a = b :=
  ext_mem fun g => ⟨h g, h' g⟩

/-- `==` is equality. -/
theorem eq_iff (a b : GtidSet) : a.eq b = true ↔ a = b := by
  constructor
  · intro h
    simp only [eq, Bool.and_eq_true, beq_iff_eq, List.all_eq_true] at h
    obtain ⟨hlen, hall⟩ := h
    have hsub : a.entries ⊆ b.entries := by
      intro kv hkv
      obtain ⟨kv', hfind, hval⟩ := (Option.any_eq_true _ _).mp (hall kv hkv)
      have hkey : kv'.1 = kv.1 := by simpa using List.find?_some hfind
      have heq : kv = kv' := Prod.ext hkey.symm (by simpa using hval)
      exact heq ▸ List.mem_of_find?_eq_some hfind
    have hperm : a.entries.Perm b.entries :=
      (List.subperm_of_subset a.entries_nodup hsub).perm_of_length_le (le_of_eq hlen.symm)
    exact eq_of_mem_entries fun kv => hperm.mem_iff
  · rintro rfl
    simp only [eq, beq_self_eq_true, Bool.true_and, List.all_eq_true]
    intro kv hkv
    refine (Option.any_eq_true _ _).mpr ?_
    cases hfind : a.entries.find? fun kv' => kv'.1 = kv.1 with
    | none =>
        have hnone := List.find?_eq_none.mp hfind kv hkv
        simp at hnone
    | some kv' =>
        have hkey : kv'.1 = kv.1 := by simpa using List.find?_some hfind
        have heq := entry_unique hkv (List.mem_of_find?_eq_some hfind) hkey.symm
        exact ⟨kv', rfl, by simp [heq]⟩

/-! ### Counting -/

/-- The transactions of some entries. -/
def transactions (m : Mapping) : Set Gtid := {g | ∃ kv ∈ m, kv.1 = g.1 ∧ Interval.Mem g.2 kv.2}

/-- A mapping denotes finitely many transactions. -/
theorem finite_transactions (m : Mapping) : (transactions m).Finite := Interval.finite_keyed m

/-- `count` is the number of transactions. -/
theorem count_eq_ncard (s : GtidSet) : s.count = ({g | g ∈ s}.ncard : Int) :=
  Interval.sum_count_eq_ncard s.keys_nodup fun kv hkv => (s.normal kv hkv).2

/-- A set has finitely many transactions. -/
theorem finite_mem (s : GtidSet) : {g | g ∈ s}.Finite := finite_transactions s.entries

/-- A set with as many transactions as one that includes it is that set. -/
theorem eq_of_subset_of_count_le {a b : GtidSet} (h : a ⊆ b) (hc : b.count ≤ a.count) :
    a = b := by
  rw [count_eq_ncard, count_eq_ncard, Nat.cast_le] at hc
  have hset : {g | g ∈ a} = {g | g ∈ b} := Set.eq_of_subset_of_ncard_le h hc b.finite_mem
  exact ext_mem fun g => Set.ext_iff.mp hset g

/-- `__str__`, uuids sorted and untagged intervals before tagged ones. The entries are
already in that order. -/
def toText (s : GtidSet) : String :=
  let uuids := (s.entries.map fun kv => kv.1.1).dedup
  let interval := fun iv : Int × Int =>
    if iv.1 = iv.2 then toString iv.1 else toString iv.1 ++ "-" ++ toString iv.2
  ",".intercalate <| uuids.map fun u =>
    ":".intercalate <| u :: (s.entries.filter fun kv => kv.1.1 = u).flatMap fun kv =>
      (if kv.1.2 = "" then [] else [kv.1.2]) ++ kv.2.map interval

/-- `GtidSet.of` for one untagged interval. -/
def ofInterval (uuid : String) (s e : Int) : GtidSet :=
  if h : s ≤ e then build [((uuid, ""), [(s, e)])] (by simpa using h) (by simp) else empty

end GtidSet

/-- A GTID set as text in an agent's JSON: one that `GtidSet.parse` reads, or one that it
rejects with a `GtidParseError`. -/
inductive GtidText
  | set (s : GtidSet)
  | malformed (text : String)

/-- `GtidSet.parse` on a text. -/
def GtidText.parse : GtidText → Except String GtidSet
  | .set s => .ok s
  | .malformed text => .error text

end DbGuard
