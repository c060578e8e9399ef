import DbGuard.Osc.Copy

/-!
# `DbGuard.Proofs.Osc.Mirror`: a write and its trigger

Which rows each statement leaves in a table, and what a write with its trigger keeps of the
relation between the table and its shadow.

`Sound` says that every row of the shadow is the image of the row of the table under the same
key. As long as the server stores rows as it is given them (`AsGiven`), neither the copy nor a
trigger can break it, whatever UNIQUE indexes there are: they store images only. What else can
break it is a write whose trigger does not exist yet. The triggers are created one after the
other, so for a moment the INSERT trigger mirrors new rows, and no trigger follows when such a
row is changed or deleted. `Mirrored` is the condition that no write does this, and
`sound_write_iff` says that it is exactly what a write has to meet.
-/

set_option autoImplicit false

namespace DbGuard.Osc

variable {K R S U V : Type} [LinearOrder K] [DecidableEq U]

section Tables

variable {ix : List (K → V → Option U)} {t : Keyed K V} {k k' : K} {v v' : V}

omit [LinearOrder K] in
/-- Two rows do not clash if they share no value of a unique index. -/
theorem clash_eq_false :
    clash ix k v k' v' = false ↔ ∀ i ∈ ix, ∀ u, i k v = some u → i k' v' ≠ some u := by
  simp only [clash, List.any_eq_false, Bool.and_eq_true, beq_iff_eq, not_and]
  constructor
  · intro h i hi u hu heq
    exact h i hi (by simp [hu]) (hu.trans heq.symm)
  · intro h i hi hsome heq
    obtain ⟨u, hu⟩ := Option.isSome_iff_exists.mp hsome
    exact h i hi u hu (heq.symm.trans hu)

omit [LinearOrder K] in
/-- The clash of two rows is mutual. -/
theorem clash_comm : clash ix k v k' v' = clash ix k' v' k v := by
  rw [Bool.eq_iff_iff, ← not_iff_not, Bool.not_eq_true, Bool.not_eq_true, clash_eq_false,
    clash_eq_false]
  exact ⟨fun h i hi u hu heq => h i hi u heq hu, fun h i hi u hu heq => h i hi u heq hu⟩

/-- REPLACE leaves its row, and the others that neither share its key nor clash with it. -/
@[simp] theorem mem_replaceInto :
    (k', v') ∈ replaceInto ix t k v ↔
      (k' = k ∧ v' = v) ∨ (k' ≠ k ∧ (k', v') ∈ t ∧ clash ix k v k' v' = false) := by
  simp [replaceInto]

/-- A row fits if no other row has its key or clashes with it. -/
theorem fits_iff {old : Option K} :
    fits ix t old k v = true ↔ ∀ k' v', (k', v') ∈ t → some k' ≠ old →
      k' ≠ k ∧ clash ix k v k' v' = false := by
  simp only [fits, List.all_eq_true, Bool.or_eq_true, decide_eq_true_eq, Bool.not_eq_true',
    Bool.or_eq_false_iff, decide_eq_false_iff_not, Prod.forall, Keyed.mem_rows]
  constructor
  · intro h k' v' hmem hne
    exact (h k' v' hmem).resolve_left hne
  · intro h k' v' hmem
    exact or_iff_not_imp_left.mpr (h k' v' hmem)

/-- INSERT IGNORE adds its row if it fits, and else nothing. -/
theorem mem_insertIgnore :
    (k', v') ∈ insertIgnore ix t k v ↔
      (k', v') ∈ t ∨ (fits ix t none k v = true ∧ k' = k ∧ v' = v) := by
  unfold insertIgnore
  by_cases hfits : fits ix t none k v
  · have hnew : (k', v') ∈ t → k' ≠ k := fun hmem => (fits_iff.mp hfits k' v' hmem (by simp)).1
    simp only [hfits, if_true, Keyed.mem_put, true_and]
    constructor
    · rintro (heq | ⟨_, hmem⟩)
      · exact .inr heq
      · exact .inl hmem
    · rintro (hmem | heq)
      · exact .inr ⟨hnew hmem, hmem⟩
      · exact .inl heq
  · simp [hfits]

end Tables

namespace Write

variable {a : Alter K R S U} {ix : List (K → R → Option U)} {src src' : Keyed K R}
  {dst : Keyed K S} {n : Nat} {installed : List Dml} {w : Write K R} {k k' : K} {r r' : R} {v : S}

/-- The key and the row that a write stores. -/
def stored : Write K R → Option (K × R)
  | insert k r => some (k, r)
  | update _ k' r => some (k', r)
  | delete _ => none

/-- The row that a write replaces or removes. -/
def old : Write K R → Option K
  | insert _ _ => none
  | update k _ _ => some k
  | delete k => some k

/-- The event of a write. -/
def event : Write K R → Dml
  | insert _ _ => .insert
  | update _ _ _ => .update
  | delete _ => .delete

/-- The rows after a write: the one that it stores, and the others but the old one. -/
theorem mem_apply (h : w.apply ix src = some src') :
    (k, r) ∈ src' ↔ w.stored = some (k, r) ∨ (w.old ≠ some k ∧ (k, r) ∈ src) := by
  cases w with
  -- An insert goes through only when its key is new.
  | insert k₀ r₀ =>
    simp only [apply, Option.ite_none_right_eq_some, Option.some.injEq] at h
    obtain ⟨hfits, rfl⟩ := h
    have hnew : (k, r) ∈ src → k ≠ k₀ := fun hmem => (fits_iff.mp hfits k r hmem (by simp)).1
    simp only [Keyed.mem_put, stored, old, Option.some.injEq, Prod.mk.injEq, ne_eq, reduceCtorEq,
      not_false_eq_true, true_and]
    constructor
    · rintro (⟨rfl, rfl⟩ | ⟨_, hmem⟩)
      · exact .inl ⟨rfl, rfl⟩
      · exact .inr hmem
    · rintro (⟨rfl, rfl⟩ | hmem)
      · exact .inl ⟨rfl, rfl⟩
      · exact .inr ⟨hnew hmem, hmem⟩
  -- An update takes the row out under its old key and stores it under the new one.
  | update k₀ k₁ r₀ =>
    simp only [apply, Option.ite_none_right_eq_some, Option.some.injEq] at h
    obtain ⟨⟨_, hfits⟩, rfl⟩ := h
    have hnew : (k, r) ∈ src → k ≠ k₀ → k ≠ k₁ := fun hmem hne =>
      (fits_iff.mp hfits k r hmem (by simpa using hne)).1
    simp only [Keyed.mem_put, Keyed.mem_erase, stored, old, Option.some.injEq, Prod.mk.injEq,
      ne_eq]
    constructor
    · rintro (⟨rfl, rfl⟩ | ⟨_, hmem, hne⟩)
      · exact .inl ⟨rfl, rfl⟩
      · exact .inr ⟨fun heq => hne heq.symm, hmem⟩
    · rintro (⟨rfl, rfl⟩ | ⟨hne, hmem⟩)
      · exact .inl ⟨rfl, rfl⟩
      · have hne' : k ≠ k₀ := fun heq => hne heq.symm
        exact .inr ⟨hnew hmem hne', hmem, hne'⟩
  -- A delete stores nothing.
  | delete k₀ =>
    simp only [apply, Option.ite_none_right_eq_some, Option.some.injEq] at h
    obtain ⟨_, rfl⟩ := h
    simp [stored, old, and_comm, eq_comm]

/-- What a write stores does not clash with the rows that it leaves. -/
theorem fits_apply (h : w.apply ix src = some src') (hw : w.stored = some (k, r))
    (hmem : (k', r') ∈ src) (hold : w.old ≠ some k') : k' ≠ k ∧ clash ix k r k' r' = false := by
  cases w with
  | insert k₀ r₀ =>
    simp only [apply, Option.ite_none_right_eq_some] at h
    cases hw
    exact fits_iff.mp h.1 k' r' hmem (by simp)
  | update k₀ k₁ r₀ =>
    simp only [apply, Option.ite_none_right_eq_some] at h
    cases hw
    exact fits_iff.mp h.1.2 k' r' hmem (by simpa [old, eq_comm] using hold)
  | delete k₀ => cases hw

/-- The row that the trigger of a write deletes by its key. -/
def removed : Write K R → Option K
  | insert _ _ => none
  | update k k' _ => if k = k' then none else some k
  | delete k => some k

/-- What the server stores of the row in the trigger's REPLACE. -/
def image (a : Alter K R S U) (n : Nat) (w : Write K R) : Option (K × S) :=
  w.stored.map fun x => a.stores n x.1 (a.project x.2)

/-- The shadow after a write whose trigger exists: what its REPLACE stores, and the other rows
that are neither deleted nor clash with it. -/
theorem mem_mirror (he : w.event ∈ installed) :
    (k, v) ∈ w.mirror a n installed dst ↔
      w.image a n = some (k, v) ∨
      ((k, v) ∈ dst ∧ w.removed ≠ some k ∧
        ∀ x, w.image a n = some x → k ≠ x.1 ∧ clash a.dstUnique x.1 x.2 k v = false) := by
  cases w with
  | insert k₀ r₀ =>
    have hin : Dml.insert ∈ installed := he
    simp only [mirror, hin, if_true, mem_replaceInto, image, stored, removed, Option.map_some,
      Option.some.injEq, Prod.ext_iff, ne_eq, reduceCtorEq, not_false_eq_true, true_and]
    grind
  | update k₀ k₁ r₀ =>
    have hin : Dml.update ∈ installed := he
    -- The trigger deletes the old row only where the key has changed.
    have hdel : (k, v) ∈ (if k₀ = k₁ then dst else deleteIgnore dst k₀) ↔
        (k, v) ∈ dst ∧ (update k₀ k₁ r₀).removed ≠ some k := by
      by_cases heq : k₀ = k₁ <;> simp [removed, heq, eq_comm]
    simp only [mirror, hin, if_true, mem_replaceInto, hdel, image, stored, Option.map_some,
      Option.some.injEq, Prod.ext_iff]
    grind
  | delete k₀ =>
    have hin : Dml.delete ∈ installed := he
    have hne : k₀ ≠ k ↔ k ≠ k₀ := ne_comm
    simp [mirror, hin, image, stored, removed, hne]

/-- The same where the row of the REPLACE is stored as it is given: its image replaces the old
row, and only a clash removes another one. -/
theorem mem_mirror_of_asGiven (he : w.event ∈ installed)
    (hgiven : ∀ k r, w.stored = some (k, r) → a.stores n k (a.project r) = (k, a.project r)) :
    (k, v) ∈ w.mirror a n installed dst ↔
      (∃ r, w.stored = some (k, r) ∧ v = a.project r) ∨
      ((k, v) ∈ dst ∧ w.old ≠ some k ∧
        ∀ k' r, w.stored = some (k', r) →
          k ≠ k' ∧ clash a.dstUnique k' (a.project r) k v = false) := by
  rw [mem_mirror he]
  cases w with
  | insert k₀ r₀ =>
    have heq := hgiven k₀ r₀ rfl
    simp only [image, stored, removed, old, Option.map_some, heq, Option.some.injEq,
      Prod.mk.injEq, forall_eq']
    grind
  | update k₀ k₁ r₀ =>
    have heq := hgiven k₁ r₀ rfl
    simp only [image, stored, removed, old, Option.map_some, heq, Option.some.injEq,
      Prod.mk.injEq, forall_eq']
    grind
  | delete k₀ => simp [image, stored, removed, old]

/-- A write whose trigger does not exist leaves the shadow alone. -/
theorem mirror_of_notMem (he : w.event ∉ installed) : w.mirror a n installed dst = dst := by
  cases w <;> exact if_neg he

end Write

/-! ### Images only -/

/-- Every row of the shadow is the image of the row of the table under its key. -/
def Sound (a : Alter K R S U) (src : Keyed K R) (dst : Keyed K S) : Prop :=
  ∀ k v, (k, v) ∈ dst → ∃ r, (k, r) ∈ src ∧ a.project r = v

/-- A write does not change or remove a row that was mirrored, unless its trigger exists. An
update that keeps the key and the image of the row changes nothing in the shadow. -/
def Mirrored (a : Alter K R S U) (c : Copy K R S) (w : Write K R) : Prop :=
  w.event ∈ c.installed ∨ ∀ k v, w.old = some k → (k, v) ∈ c.shadow →
    ∃ r, w.stored = some (k, r) ∧ a.project r = v

/-- The server stores the row as it is given it. -/
def AsGiven (a : Alter K R S U) (c : Copy K R S) (k : K) (r : R) : Prop :=
  a.stores c.puts k (a.project r) = (k, a.project r)

section

variable {a : Alter K R S U} {c : Copy K R S} {src' : Keyed K R} {w : Write K R}

/-- A write whose row is stored as it is given keeps the shadow sound if and only if it is
`Mirrored`. -/
theorem sound_write_iff (h : Sound a c.source c.shadow)
    (hw : w.apply a.srcUnique c.source = some src')
    (hgiven : w.event ∈ c.installed → ∀ k r, w.stored = some (k, r) → AsGiven a c k r) :
    Sound a src' (w.mirror a c.puts c.installed c.shadow) ↔ Mirrored a c w := by
  constructor
  · intro hsound
    by_cases he : w.event ∈ c.installed
    · exact .inl he
    · rw [Write.mirror_of_notMem he] at hsound
      refine .inr fun k v hold hmem => ?_
      obtain ⟨r, hr, hv⟩ := hsound k v hmem
      rcases (Write.mem_apply hw).mp hr with hstored | ⟨hne, _⟩
      · exact ⟨r, hstored, hv⟩
      · exact absurd hold hne
  · intro hm k v hmem
    by_cases he : w.event ∈ c.installed
    · rcases (Write.mem_mirror_of_asGiven he (hgiven he)).mp hmem with
        ⟨r, hstored, hv⟩ | ⟨hmem, hold, _⟩
      · exact ⟨r, (Write.mem_apply hw).mpr (.inl hstored), hv.symm⟩
      · obtain ⟨r, hr, hv⟩ := h k v hmem
        exact ⟨r, (Write.mem_apply hw).mpr (.inr ⟨hold, hr⟩), hv⟩
    · rw [Write.mirror_of_notMem he] at hmem
      by_cases hold : w.old = some k
      · obtain ⟨r, hstored, hv⟩ := hm.resolve_left he k v hold hmem
        exact ⟨r, (Write.mem_apply hw).mpr (.inl hstored), hv⟩
      · obtain ⟨r, hr, hv⟩ := h k v hmem
        exact ⟨r, (Write.mem_apply hw).mpr (.inr ⟨hold, hr⟩), hv⟩

/-- Copying a row keeps the shadow sound. -/
theorem sound_insertIgnore {src : Keyed K R} {dst : Keyed K S} {k : K} {r : R}
    (h : Sound a src dst) (hr : (k, r) ∈ src) :
    Sound a src (insertIgnore a.dstUnique dst k (a.project r)) := by
  intro k' v' hmem
  rcases mem_insertIgnore.mp hmem with hmem | ⟨_, rfl, rfl⟩
  · exact h k' v' hmem
  · exact ⟨r, hr, rfl⟩

end

end DbGuard.Osc
