import Mathlib.Data.List.Nodup
import Mathlib.Data.List.Perm.Basic

/-!
# `DbGuard.Grouped`: dicts of lists

`Grouped K V` is a dict whose values are lists, in the order in which its keys came up. That
the keys are distinct is a field of the structure.

`add` is `setdefault(key, []).append(value)`. What it means is said by `pairs`, the values one
by one with their keys: `perm_pairs_add` says that one pair comes in, and `mem_get` that looking
a key up gives the values of its pairs.
-/

set_option autoImplicit false

/-- A dict of lists. -/
structure Grouped (K V : Type) where
  entries : List (K × List V) := []
  nodup : (entries.map Prod.fst).Nodup := by simp

namespace Grouped

variable {K V W : Type}

/-- `{}`. -/
@[reducible] def empty : Grouped K V := { entries := [], nodup := List.nodup_nil }

/-- The values one by one, each with its key. -/
def pairs (m : Grouped K V) : List (K × V) := m.entries.flatMap fun kv => kv.2.map (kv.1, ·)

/-- A function of the values of each key. -/
def mapValues (m : Grouped K V) (f : List V → List W) : Grouped K W where
  entries := m.entries.map fun kv => (kv.1, f kv.2)
  nodup := by simpa [List.map_map, Function.comp_def] using m.nodup

/-- The entries that have a value. -/
def dropEmpty (m : Grouped K V) : Grouped K V where
  entries := m.entries.filter fun kv => !kv.2.isEmpty
  nodup := m.nodup.sublist (List.filter_sublist.map Prod.fst)

variable [DecidableEq K]

/-- `m.get(key, [])`. -/
def get (m : Grouped K V) (k : K) : List V :=
  match m.entries.find? fun kv => kv.1 = k with
  | some kv => kv.2
  | none => []

/-- `m.setdefault(key, [])`. -/
def touch (m : Grouped K V) (k : K) : Grouped K V where
  entries := if k ∈ m.entries.map Prod.fst then m.entries else m.entries ++ [(k, [])]
  nodup := by
    split
    · exact m.nodup
    · rename_i h
      rw [List.map_append]
      exact m.nodup.append (List.nodup_singleton k) (by simpa using h)

/-- `m[key].append(value)` for a key of the dict. -/
def append (m : Grouped K V) (k : K) (v : V) : Grouped K V where
  entries := m.entries.map fun kv => if kv.1 = k then (kv.1, kv.2 ++ [v]) else kv
  nodup := by
    have hkeys : ∀ kv : K × List V, (if kv.1 = k then (kv.1, kv.2 ++ [v]) else kv).1 = kv.1 := by
      intro kv
      split
      · rfl
      · rfl
    simpa [List.map_map, Function.comp_def, hkeys] using m.nodup

/-- `m.setdefault(key, []).append(value)`. -/
def add (m : Grouped K V) (k : K) (v : V) : Grouped K V := (m.touch k).append k v

/-- `==` of dicts. -/
def eq [DecidableEq V] (m m' : Grouped K V) : Bool :=
  m.entries.length == m'.entries.length && m.entries.all fun kv =>
    (m'.entries.find? fun kv' => kv'.1 = kv.1).any fun kv' => kv.2 == kv'.2

/-! ### Pairs -/

variable {m : Grouped K V} {k : K} {v : V} {x : K × V}

omit [DecidableEq K] in
/-- The pairs, entry by entry. -/
theorem mem_pairs : x ∈ m.pairs ↔ ∃ kv ∈ m.entries, kv.1 = x.1 ∧ x.2 ∈ kv.2 := by
  rw [pairs, List.mem_flatMap]
  constructor
  · rintro ⟨kv, hkv, hx⟩
    obtain ⟨v, hv, rfl⟩ := List.mem_map.mp hx
    exact ⟨kv, hkv, rfl, hv⟩
  · rintro ⟨kv, hkv, hkey, hv⟩
    exact ⟨kv, hkv, List.mem_map.mpr ⟨x.2, hv, Prod.ext hkey rfl⟩⟩

omit [DecidableEq K] in
/-- The entry of a key is unique. -/
theorem entry_unique {kv kv' : K × List V} (h : kv ∈ m.entries) (h' : kv' ∈ m.entries)
    (hk : kv.1 = kv'.1) : kv = kv' :=
  List.inj_on_of_nodup_map m.nodup h h' hk

/-- Looking a key up gives its entry. -/
theorem get_of_mem {kv : K × List V} (h : kv ∈ m.entries) : m.get kv.1 = kv.2 := by
  rw [get]
  split
  · rename_i kv' hfind
    have hkey : kv'.1 = kv.1 := by simpa using List.find?_some hfind
    rw [entry_unique (List.mem_of_find?_eq_some hfind) h hkey]
  · rename_i hfind
    have hnone := List.find?_eq_none.mp hfind kv h
    simp at hnone

/-- An absent key has no values. -/
theorem get_of_not_mem (h : k ∉ m.entries.map Prod.fst) : m.get k = [] := by
  rw [get]
  split
  · rename_i kv hfind
    have hkey : kv.1 = k := by simpa using List.find?_some hfind
    exact absurd (List.mem_map.mpr ⟨kv, List.mem_of_find?_eq_some hfind, hkey⟩) h
  · rfl

/-- Looking a key up gives the values of its pairs. -/
theorem mem_get : v ∈ m.get k ↔ (k, v) ∈ m.pairs := by
  rw [mem_pairs]
  constructor
  · intro h
    by_cases hk : k ∈ m.entries.map Prod.fst
    · obtain ⟨kv, hkv, rfl⟩ := List.mem_map.mp hk
      rw [get_of_mem hkv] at h
      exact ⟨kv, hkv, rfl, h⟩
    · rw [get_of_not_mem hk] at h
      exact absurd h List.not_mem_nil
  · rintro ⟨kv, hkv, rfl, hv⟩
    rw [get_of_mem hkv]
    exact hv

omit [DecidableEq K] in
/-- The empty mapping has no pairs. -/
@[simp] theorem pairs_empty : ({} : Grouped K V).pairs = [] := rfl

/-- An entry without values adds no pair. -/
@[simp] theorem pairs_touch : (m.touch k).pairs = m.pairs := by
  rw [pairs, touch]
  dsimp only
  split
  · rfl
  · rw [List.flatMap_append]
    simp [pairs]

/-- The key is there after `touch`. -/
theorem mem_keys_touch : k ∈ (m.touch k).entries.map Prod.fst := by
  rw [touch]
  dsimp only
  split
  · rename_i h
    exact h
  · simp

/-- The keys stay when a value comes in. -/
theorem keys_append : (m.append k v).entries.map Prod.fst = m.entries.map Prod.fst := by
  rw [append, List.map_map]
  refine List.map_congr_left fun kv _ => ?_
  show (if kv.1 = k then (kv.1, kv.2 ++ [v]) else kv).1 = kv.1
  split
  · rfl
  · rfl

/-- An append adds its pair. -/
theorem perm_pairs_append (h : k ∈ m.entries.map Prod.fst) :
    (m.append k v).pairs.Perm ((k, v) :: m.pairs) := by
  obtain ⟨entries, hnodup⟩ := m
  show ((entries.map fun kv => if kv.1 = k then (kv.1, kv.2 ++ [v]) else kv).flatMap
    fun kv => kv.2.map (kv.1, ·)).Perm ((k, v) :: entries.flatMap fun kv => kv.2.map (kv.1, ·))
  replace h : k ∈ entries.map Prod.fst := h
  induction entries with
  | nil => cases h
  | cons kv entries ih =>
      rw [List.map_cons, List.nodup_cons] at hnodup
      rw [List.map_cons, List.flatMap_cons, List.flatMap_cons]
      by_cases hk : kv.1 = k
      · -- no later entry has the key
        have hrest : (entries.map fun kv => if kv.1 = k then (kv.1, kv.2 ++ [v]) else kv)
            = entries := by
          refine (List.map_congr_left fun kv' hkv' => if_neg fun hk' => ?_).trans (List.map_id _)
          exact hnodup.1 (List.mem_map.mpr ⟨kv', hkv', hk'.trans hk.symm⟩)
        rw [hrest, if_pos hk, List.map_append, hk]
        have hmid := @List.perm_middle _ (k, v) (kv.2.map fun x => (k, x))
          (entries.flatMap fun kv => kv.2.map fun x => (kv.1, x))
        simp only [List.map_cons, List.map_nil, List.append_assoc, List.singleton_append]
        exact hmid
      · rw [if_neg hk]
        have hin : k ∈ entries.map Prod.fst := by
          rw [List.map_cons] at h
          exact (List.mem_cons.mp h).resolve_left fun heq => hk heq.symm
        exact ((ih hnodup.2 hin).append_left _).trans List.perm_middle

/-- `setdefault(key, []).append(value)` adds its pair. -/
theorem perm_pairs_add : (m.add k v).pairs.Perm ((k, v) :: m.pairs) := by
  have h := perm_pairs_append (v := v) (mem_keys_touch (m := m) (k := k))
  rw [pairs_touch] at h
  exact h

/-- No key is left without a value when one comes in. -/
theorem nonempty_add (h : ∀ kv ∈ m.entries, kv.2 ≠ []) : ∀ kv ∈ (m.add k v).entries, kv.2 ≠ [] := by
  intro kv hkv
  obtain ⟨kv', hkv', rfl⟩ := List.mem_map.mp hkv
  by_cases hk : kv'.1 = k
  · rw [if_pos hk]
    simp
  · rw [if_neg hk]
    simp only [touch] at hkv'
    split at hkv'
    · exact h kv' hkv'
    · rcases List.mem_append.mp hkv' with hkv' | hkv'
      · exact h kv' hkv'
      · rw [List.mem_singleton.mp hkv'] at hk
        exact absurd rfl hk

omit [DecidableEq K] in
/-- Then a dict without pairs is empty. -/
theorem entries_eq_nil (h : ∀ kv ∈ m.entries, kv.2 ≠ []) : m.entries = [] ↔ m.pairs = [] := by
  constructor
  · intro hnil
    rw [pairs, hnil]
    rfl
  · intro hnil
    by_contra hne
    obtain ⟨kv, hkv⟩ := List.exists_mem_of_ne_nil _ hne
    obtain ⟨v, hv⟩ := List.exists_mem_of_ne_nil _ (h kv hkv)
    have hmem : (kv.1, v) ∈ m.pairs := mem_pairs.mpr ⟨kv, hkv, rfl, hv⟩
    rw [hnil] at hmem
    cases hmem

/-- Dicts are equal when they agree under each key. -/
theorem eq_iff [DecidableEq V] {m' : Grouped K V} :
    m.eq m' = true ↔ ∀ kv, kv ∈ m.entries ↔ kv ∈ m'.entries := by
  have hnodup : ∀ m : Grouped K V, m.entries.Nodup := fun m => List.Nodup.of_map _ m.nodup
  simp only [eq, Bool.and_eq_true, beq_iff_eq, List.all_eq_true]
  constructor
  · rintro ⟨hlen, hall⟩
    have hsub : m.entries ⊆ m'.entries := by
      intro kv hkv
      obtain ⟨kv', hfind, hval⟩ := (Option.any_eq_true _ _).mp (hall kv hkv)
      have hkey : kv'.1 = kv.1 := by simpa using List.find?_some hfind
      have heq : kv = kv' := Prod.ext hkey.symm (beq_iff_eq.mp hval)
      exact heq ▸ List.mem_of_find?_eq_some hfind
    have hperm := (List.subperm_of_subset (hnodup m) hsub).perm_of_length_le
      (Nat.le_of_eq hlen.symm)
    exact fun kv => hperm.mem_iff
  · intro h
    refine ⟨((List.perm_ext_iff_of_nodup (hnodup m) (hnodup m')).mpr h).length_eq, ?_⟩
    intro kv hkv
    refine (Option.any_eq_true _ _).mpr ?_
    cases hfind : m'.entries.find? fun kv' => kv'.1 = kv.1 with
    | none =>
        have hnone := List.find?_eq_none.mp hfind kv ((h kv).mp hkv)
        simp at hnone
    | some kv' =>
        have hkey : kv'.1 = kv.1 := by simpa using List.find?_some hfind
        have heq := entry_unique ((h kv).mp hkv) (List.mem_of_find?_eq_some hfind) hkey.symm
        exact ⟨kv', rfl, by simp [heq]⟩

end Grouped
