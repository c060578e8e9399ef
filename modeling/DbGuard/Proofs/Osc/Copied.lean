import DbGuard.Proofs.Osc.Phases

/-!
# `DbGuard.Proofs.Osc.Copied`: the shadow follows the table

The copy of a table while the application writes it. `Copied` is what the online copy is for.
Up to the last copied boundary the shadow has exactly the images of the rows of the table,
every other row of the shadow is the image of a row, and from the end of `_copy` to the swap
the shadow has the images of all rows.

`Kept` is the invariant. Its part `complete` says which keys are done in each phase
(`Phase.covers`): those behind the position of the copy, and those above the maximum that was
read once, whose rows only the triggers write. The locks of the open chunk are not needed for
this.

`Followed` is the condition on the moves, and `copied_of_followed` says that in a run whose
moves meet it the promise holds in every state. Three things are kept out. A write changes a
mirrored row whose trigger does not exist yet. The server stores a row under another key than
it was given, as it does with a 0 in an AUTO_INCREMENT column. And two images have the same
values in a UNIQUE index of the shadow, where the rows differ: an ALTER that drops a column of
an index leaves the index on the others.

For a plain ALTER only the first of them is left, since two images that clash are images of
rows that clash, and `copied_iff` is exact. After the third `CREATE TRIGGER` every write is
mirrored. Before it a row can stay behind in the shadow for good, and
`stale_row_outlives_the_copy` is a run in which it does.
-/

set_option autoImplicit false

namespace DbGuard.Osc

open Machine (Always Obeys Reach)

variable {K R S U : Type} [LinearOrder K] [DecidableEq U]

/-- What the online copy promises about the two tables. -/
structure Copied (a : Alter K R S U) (c : Copy K R S) : Prop where
  behind : ∀ b, c.boundaries.getLast? = some b → ∀ k ≤ b, ∀ v,
    (k, v) ∈ c.shadow ↔ ∃ r, (k, r) ∈ c.source ∧ a.project r = v
  ahead : ∀ k v, (k, v) ∈ c.shadow → ∃ r, (k, r) ∈ c.source ∧ a.project r = v
  returned : c.phase.copyReturned → ∀ k v,
    (k, v) ∈ c.shadow ↔ ∃ r, (k, r) ∈ c.source ∧ a.project r = v

/-- The condition on a move. A write is mirrored, and where a trigger stores its row, the row is
stored as it is given and clashes with no other row that is done. A row that is copied is
stored as it is given, and it is in the shadow already or clashes with none there. -/
def Followed (a : Alter K R S U) (c : Copy K R S) : Move K R → Prop
  | .write w => Mirrored a c w ∧ (w.event ∈ c.installed → ∀ k r, w.stored = some (k, r) →
      AsGiven a c k r ∧ ∀ k' v, (k', v) ∈ c.shadow → k' ≠ k → w.old ≠ some k' →
        c.phase.covers k' → clash a.dstUnique k (a.project r) k' v = false)
  | .copyRow => ∀ k r, c.upcoming = some (k, r) → AsGiven a c k r ∧
      (k ∈ c.shadow.keys ∨
        ∀ k' v, (k', v) ∈ c.shadow → clash a.dstUnique k (a.project r) k' v = false)
  | _ => True

/-- The keys that the open chunk has written are in its range. -/
def Phase.inside : Phase K → Prop
  | .chunk _ lo hi _ _ written => ∀ k ∈ written, inRange (lo, some hi) k = true
  | _ => True

/-- The invariant of the copy. -/
structure Kept (a : Alter K R S U) (c : Copy K R S) : Prop where
  shape : Shape c
  inside : c.phase.inside
  sound : Sound a c.source c.shadow
  unique : Unique a.srcUnique c.source
  complete : ∀ k r, (k, r) ∈ c.source → c.phase.covers k → (k, a.project r) ∈ c.shadow

section

variable {a : Alter K R S U} {c c' : Copy K R S} {k k' : K} {r r' : R}

/-- An invariant gives the promise. -/
theorem Kept.copied (h : Kept a c) : Copied a c := by
  have hboth : ∀ k, c.phase.covers k → ∀ v,
      (k, v) ∈ c.shadow ↔ ∃ r, (k, r) ∈ c.source ∧ a.project r = v := by
    intro k hk v
    constructor
    · exact h.sound k v
    · rintro ⟨r, hr, rfl⟩
      exact h.complete k r hr hk
  refine ⟨?_, h.sound, ?_⟩
  · intro b hb k hle
    have hshape := h.shape
    refine hboth k ?_
    unfold Shape at hshape
    cases hp : c.phase <;> simp only [hp] at hshape <;> simp only [Phase.covers]
    case triggers => simp [hshape.2] at hb
    case maxPk => simp [hshape.2] at hb
    case boundary =>
      rw [← hshape.2, hb]
      exact .inl (above_some_eq_false.mpr hle)
    case chunk pos _ =>
      refine .inl ?_
      by_contra habove
      have hlo := hshape.2.2.2.2 k (by simpa using habove)
      rw [← hshape.2.1, hb] at hlo
      exact absurd hlo (by simpa [above] using hle)
  · intro hret k
    refine hboth k ?_
    cases hp : c.phase <;> simp only [hp, Phase.copyReturned] at hret <;> trivial

/-! ### Each move -/

/-- The copy at its start. -/
theorem kept_start (src : Table a.srcUnique) : Kept a (Copy.start src) where
  shape := ⟨rfl, rfl⟩
  inside := trivial
  sound := fun _ _ h => absurd h (Keyed.notMem_empty _)
  unique := src.unique
  complete := fun _ _ _ hk => hk.elim

/-- The table keeps its UNIQUE indexes. -/
theorem unique_apply {src src' : Keyed K R} {w : Write K R} (h : Unique a.srcUnique src)
    (hw : w.apply a.srcUnique src = some src') : Unique a.srcUnique src' := by
  intro k r k' r' hr hr' hne
  rcases (Write.mem_apply hw).mp hr with hstored | ⟨hold, hmem⟩
  · rcases (Write.mem_apply hw).mp hr' with hstored' | ⟨hold', hmem'⟩
    · have heq : (k, r) = (k', r') := Option.some.inj (hstored.symm.trans hstored')
      exact absurd (Prod.mk.inj heq).1 hne
    · exact (Write.fits_apply hw hstored hmem' hold').2
  · rcases (Write.mem_apply hw).mp hr' with hstored' | ⟨hold', hmem'⟩
    · rw [clash_comm]
      exact (Write.fits_apply hw hstored' hmem hold).2
    · exact h k r k' r' hmem hmem' hne

/-- A write that is followed. -/
theorem Kept.write {w : Write K R} (h : Kept a c) (hok : Followed a c (.write w))
    (hw : c.write a w = some c') : Kept a c' := by
  obtain ⟨src', happly, _, rfl⟩ := write_eq hw
  obtain ⟨hm, hput⟩ := hok
  have hgiven : w.event ∈ c.installed → ∀ k r, w.stored = some (k, r) → AsGiven a c k r :=
    fun he k r hstored => (hput he k r hstored).1
  refine ⟨h.shape, h.inside, (sound_write_iff h.sound happly hgiven).mpr hm,
    unique_apply h.unique happly, ?_⟩
  intro k r hr hk
  have he : w.event ∈ c.installed := by
    rw [installed_of_covers h.shape hk]
    exact event_mem_triggerSql w
  rcases (Write.mem_apply happly).mp hr with hstored | ⟨hold, hmem⟩
  · exact (Write.mem_mirror_of_asGiven he (hgiven he)).mpr (.inl ⟨r, hstored, rfl⟩)
  · have himage := h.complete k r hmem hk
    refine (Write.mem_mirror_of_asGiven he (hgiven he)).mpr (.inr ⟨himage, hold, ?_⟩)
    intro k' r' hstored
    have hne : k ≠ k' := (Write.fits_apply happly hstored hmem hold).1
    exact ⟨hne, (hput he k' r' hstored).2 k _ himage hne hold hk⟩

/-- In a chunk, a row of the table is stored in the shadow or it is there. -/
theorem mem_copyRow (h : Kept a c) (hr : (k, r) ∈ c.source)
    (hfree : k ∈ c.shadow.keys ∨
      ∀ k' v, (k', v) ∈ c.shadow → clash a.dstUnique k (a.project r) k' v = false) :
    (k, a.project r) ∈ insertIgnore a.dstUnique c.shadow k (a.project r) := by
  by_cases hk : k ∈ c.shadow.keys
  · -- What is there under the key is its own image.
    obtain ⟨v, hv⟩ := Keyed.mem_keys.mp hk
    obtain ⟨r', hr', rfl⟩ := h.sound k v hv
    rw [Keyed.unique hr hr']
    exact mem_insertIgnore.mpr (.inl hv)
  · refine mem_insertIgnore.mpr (.inr ⟨fits_iff.mpr fun k' v' hk' _ => ⟨?_, ?_⟩, rfl, rfl⟩)
    · rintro rfl
      exact hk (Keyed.key_mem hk')
    · exact hfree.resolve_left hk k' v' hk'

/-- One row of a chunk is copied. -/
theorem Kept.copyRow (h : Kept a c) (hok : Followed a c .copyRow)
    (hm : c.step a .copyRow = some c') : Kept a c' := by
  have hshape := shape_step h.shape hm
  simp only [Copy.step] at hm
  split at hm
  · rename_i max lo hi last pos written hp
    -- The row that is copied is the next one in the range, and the server keeps it as it is.
    obtain ⟨⟨k, r⟩, hnext, rfl⟩ := Option.map_eq_some_iff.mp hm
    obtain ⟨hr, habove, hle, hfirst⟩ := nextRow_eq_some hnext
    obtain ⟨hgiven, hfree⟩ := hok k r (by rw [Copy.upcoming, hp]; exact hnext)
    have hput : a.stores c.puts k (a.project r) = (k, a.project r) := hgiven
    simp only [hput] at hshape ⊢
    refine ⟨hshape, ?_, sound_insertIgnore h.sound hr, h.unique, ?_⟩
    -- What is inserted lies within the range, as what was inserted before.
    · intro k' hk'
      have hshape' := h.shape
      have hinside := h.inside
      simp only [Shape, hp] at hshape'
      rw [hp] at hinside
      split at hk'
      · rcases List.mem_append.mp hk' with hk' | hk'
        · exact hinside k' hk'
        · rw [List.mem_singleton.mp hk']
          exact inRange_iff.mpr ⟨hshape'.2.2.2.2 k habove, upto_some.mpr hle⟩
      · exact hinside k' hk'
    -- Complete up to the new position: the rows copied before are still there.
    intro k' r' hr' hk'
    -- An insert adds a row or drops the one it was given, and keeps all the others.
    have hcopied : above pos k' = false ∨ max < k' →
        (k', a.project r') ∈ insertIgnore a.dstUnique c.shadow k (a.project r) := fun hcov =>
      mem_insertIgnore.mpr (.inl (h.complete k' r' hr' (by rw [hp]; exact hcov)))
    rcases hk' with hk' | hk'
    · by_cases hnew : above pos k' = true
      · -- Between the old position and the new one there is only the row that is copied.
        have hle' : k' ≤ k := above_some_eq_false.mp hk'
        have hge : k ≤ k' := hfirst k' r' hr'
          (inRange_iff.mpr ⟨hnew, upto_some.mpr (hle'.trans hle)⟩)
        obtain rfl : k = k' := le_antisymm hge hle'
        rw [Keyed.unique hr' hr]
        exact mem_copyRow h hr hfree
      · exact hcopied (.inl (by simpa using hnew))
    · exact hcopied (.inr hk')
  · cases hm

/-- A chunk ends. -/
theorem Kept.endChunk (h : Kept a c) (hm : c.step a .endChunk = some c') : Kept a c' := by
  have hshape' := shape_step h.shape hm
  simp only [Copy.step] at hm
  split at hm
  · rename_i max lo hi last pos written hp
    split at hm
    · cases hm
    · rename_i hnone
      have hshape := h.shape
      simp only [Shape, hp] at hshape
      obtain ⟨-, -, -, hend, -⟩ := hshape
      -- Every row up to the end of the chunk is behind the position.
      have hdone : ∀ k r, (k, r) ∈ c.source → k ≤ hi ∨ max < k →
          (k, a.project r) ∈ c.shadow := by
        intro k r hr hk
        refine h.complete k r hr ?_
        rw [hp]
        refine hk.imp_left fun hle => ?_
        by_contra habove
        refine hnone (List.find?_isSome.mpr ⟨(k, r), hr, ?_⟩)
        exact inRange_iff.mpr ⟨by simpa using habove, upto_some.mpr hle⟩
      cases hm
      refine ⟨hshape', by cases last <;> trivial, h.sound, h.unique, ?_⟩
      intro k r hr hk
      cases last with
      | true =>
        refine hdone k r hr ?_
        rw [hend rfl]
        exact le_or_gt k max
      | false => exact hdone k r hr (hk.imp_left above_some_eq_false.mp)
  · cases hm

/-- A chunk is undone, to be made again. -/
theorem Kept.undoChunk (h : Kept a c) (hm : c.step a .undoChunk = some c') : Kept a c' := by
  have hshape' := shape_step h.shape hm
  simp only [Copy.step] at hm
  split at hm
  · rename_i max lo hi last pos written hp
    have hshape := h.shape
    simp only [Shape, hp] at hshape
    obtain ⟨-, -, hmax, -, hpos⟩ := hshape
    have hwritten := h.inside
    rw [hp] at hwritten
    cases hm
    refine ⟨hshape', by simp [Phase.inside], ?_, h.unique, ?_⟩
    · intro k v hmem
      exact h.sound k v (Keyed.mem_keep.mp hmem).1
    · intro k r hr hk
      -- The keys that are undone are above the start of the chunk and not above the maximum.
      have hkept : k ∉ written := by
        intro hwr
        obtain ⟨habove, hupto⟩ := inRange_iff.mp (hwritten k hwr)
        rcases hk with hk | hk
        · rw [habove] at hk
          cases hk
        · exact absurd hk (not_lt.mpr ((upto_some.mp hupto).trans hmax))
      have hcov : c.phase.covers k := by
        rw [hp]
        refine hk.imp_left fun hk => ?_
        by_contra habove
        rw [hpos k (by simpa using habove)] at hk
        cases hk
      exact Keyed.mem_keep.mpr ⟨h.complete k r hr hcov, by simpa using hkept⟩
  · cases hm

/-- The last key of the copy is read. -/
theorem Kept.readMax (h : Kept a c) (hm : c.step a .readMax = some c') : Kept a c' := by
  have hshape := shape_step h.shape hm
  simp only [Copy.step] at hm
  split at hm
  · cases hlast : c.source.last? with
    | none =>
      simp only [maxPk, hlast, Option.map_none, Option.some.injEq] at hm
      subst hm
      refine ⟨hshape, trivial, h.sound, h.unique, fun k r hr _ => ?_⟩
      exact absurd hr (Keyed.notMem_of_last?_eq_none hlast (k, r))
    | some x =>
      simp only [maxPk, hlast, Option.map_some, Option.some.injEq] at hm
      subst hm
      refine ⟨hshape, trivial, h.sound, h.unique, fun k r hr hk => ?_⟩
      rcases hk with hk | hk
      · cases hk
      · exact absurd hk (not_lt.mpr (Keyed.le_of_last? hlast hr))
  · cases hm

/-- The moves that change neither table, and do not say that more is done. -/
theorem Kept.of_tables {m : Move K R} (h : Kept a c) (hm : c.step a m = some c')
    (hsrc : c'.source = c.source) (hdst : c'.shadow = c.shadow)
    (hinside : c'.phase.inside) (hcov : ∀ k, c'.phase.covers k → c.phase.covers k) :
    Kept a c' where
  shape := shape_step h.shape hm
  inside := hinside
  sound := by
    rw [hsrc, hdst]
    exact h.sound
  unique := by
    rw [hsrc]
    exact h.unique
  complete := by
    rw [hsrc, hdst]
    exact fun k r hr hk => h.complete k r hr (hcov k hk)

/-- A trigger is created. -/
theorem Kept.createTrigger (h : Kept a c) (hm : c.step a .createTrigger = some c') :
    Kept a c' := by
  have hm' := hm
  simp only [Copy.step] at hm
  split at hm
  · rename_i e todo hp
    cases hm
    refine h.of_tables hm' rfl rfl (by cases todo <;> trivial) fun k hk => ?_
    cases todo <;> exact hk.elim
  · cases hm

/-- The boundary of a chunk is read. -/
theorem Kept.readBoundary {size : Int} (h : Kept a c)
    (hm : c.step a (.readBoundary size) = some c') : Kept a c' := by
  have hm' := hm
  simp only [Copy.step] at hm
  split at hm
  · rename_i max lo hp
    split at hm
    all_goals
      cases hm
      refine h.of_tables hm' rfl rfl (by simp [Phase.inside]) fun k hk => ?_
      rw [hp]
      exact hk
  · cases hm

/-- The moves after the copy only read the tables. -/
theorem Kept.afterCopy {m : Move K R} (h : Kept a c) (hm : c.step a m = some c')
    (hret : c.phase.copyReturned) (hret' : c'.phase.copyReturned) (hsrc : c'.source = c.source)
    (hdst : c'.shadow = c.shadow) : Kept a c' := by
  refine h.of_tables hm hsrc hdst ?_ fun k _ => ?_
  · cases hp : c'.phase <;> simp only [hp, Phase.copyReturned] at hret' <;> trivial
  · cases hp : c.phase <;> simp only [hp, Phase.copyReturned] at hret <;> trivial

/-- Every step of the copy keeps what it has copied. -/
theorem kept_step {m : Move K R} (h : Kept a c) (hok : Followed a c m)
    (hm : c.step a m = some c') : Kept a c' := by
  cases m with
  | write w => exact h.write hok hm
  | createTrigger => exact h.createTrigger hm
  | readMax => exact h.readMax hm
  | readBoundary size => exact h.readBoundary hm
  | copyRow => exact h.copyRow hok hm
  | endChunk => exact h.endChunk hm
  | undoChunk => exact h.undoChunk hm
  | compare =>
    have hm' := hm
    simp only [Copy.step] at hm
    split at hm
    · rename_i hp
      cases hm
      refine h.afterCopy hm' (by simp [hp, Phase.copyReturned]) ?_ rfl rfl
      show Phase.copyReturned (if _ then _ else _)
      split <;> trivial
    · cases hm
  | sumSource | sumShadow | undoRange | rename =>
    have hm' := hm
    simp only [Copy.step] at hm
    split at hm
    · rename_i hp
      cases hm
      exact h.afterCopy hm' (by simp [hp, Phase.copyReturned]) trivial rfl rfl
    · cases hm

/-- In every run whose moves meet the condition, the shadow follows the table. -/
theorem copied_of_followed (a : Alter K R S U) (src : Table a.srcUnique) {c : Copy K R S}
    (hrun : Reach (Copy.step a) (Followed a) (Copy.start src) c) : Copied a c :=
  (hrun.invariant (kept_start src) fun _ _ _ _ h hok hm => kept_step h hok hm).copied

end

/-! ### The condition on concrete runs -/

instance (phase : Phase K) (k : K) : Decidable (phase.covers k) :=
  match phase with
  | .triggers _ | .maxPk => .isFalse id
  | .boundary _ _ | .chunk _ _ _ _ _ _ => inferInstanceAs (Decidable (_ ∨ _))
  | .checksum _ _ | .swap | .renamed | .mismatch => .isTrue trivial

section

variable [DecidableEq S] (a : Alter K R S U) (c : Copy K R S)

instance (k : K) (r : R) : Decidable (AsGiven a c k r) := inferInstanceAs (Decidable (_ = _))

instance (w : Write K R) : Decidable (Mirrored a c w) :=
  decidable_of_iff (w.event ∈ c.installed ∨ ∀ k ∈ w.old, ∀ x ∈ c.shadow.rows, x.1 = k →
      ∃ y ∈ w.stored, y.1 = k ∧ a.project y.2 = x.2) (by
    simp only [Mirrored, Option.mem_def, Prod.forall, Prod.exists, Keyed.mem_rows]
    grind)

omit [DecidableEq S] in
/-- The condition on a write, row by row. -/
theorem followed_write (w : Write K R) :
    (Mirrored a c w ∧ (w.event ∈ c.installed → ∀ x ∈ w.stored,
      AsGiven a c x.1 x.2 ∧ ∀ y ∈ c.shadow.rows, y.1 ≠ x.1 → w.old ≠ some y.1 →
        c.phase.covers y.1 → clash a.dstUnique x.1 (a.project x.2) y.1 y.2 = false)) ↔
      Followed a c (.write w) := by
  simp [Followed, Keyed.mem_rows]

omit [DecidableEq S] in
/-- The condition on a row that is copied, row by row. -/
theorem followed_copyRow :
    (∀ x ∈ c.upcoming, AsGiven a c x.1 x.2 ∧
      ((∃ y ∈ c.shadow.rows, y.1 = x.1) ∨
        ∀ y ∈ c.shadow.rows, clash a.dstUnique x.1 (a.project x.2) y.1 y.2 = false)) ↔
      Followed a c .copyRow := by
  simp [Followed, Keyed.mem_rows, Keyed.mem_keys]

instance (m : Move K R) : Decidable (Followed a c m) :=
  match m with
  | .write w => decidable_of_iff _ (followed_write a c w)
  | .copyRow => decidable_of_iff _ (followed_copyRow a c)
  | .createTrigger | .readMax | .readBoundary _ | .endChunk | .undoChunk | .sumSource
  | .sumShadow | .undoRange | .compare | .rename => .isTrue trivial

end

/-- `DROP COLUMN b` of a table with the columns `a` and `b` and a UNIQUE index on both. The
index of the shadow is on `a` alone. -/
def narrowed : Alter Nat (Nat × Nat) Nat (List Nat) where
  project r := r.1
  srcUnique := [fun _ r => some [r.1, r.2]]
  dstUnique := [fun _ v => some [v]]
  srcCrc _ r := r.1
  dstCrc _ v := v

/-- A table with one row. -/
def onePair : Table narrowed.srcUnique where
  rows := Keyed.empty.put 1 (10, 0)
  unique := by
    intro k v k' v' h h' hne
    simp only [Keyed.mem_put, Keyed.notMem_empty, and_false, or_false] at h h'
    exact absurd (h.1.trans h'.1.symm) hne

/-- A second row is inserted before the first one is copied. -/
def insertThenCopy (r : Nat × Nat) : List (Move Nat (Nat × Nat)) :=
  [.createTrigger, .createTrigger, .createTrigger, .readMax, .readBoundary 1000,
   .write (.insert 2 r), .copyRow, .endChunk]

/-- The second row has another value in the first column. -/
theorem narrowed_copy_follows :
    Copied narrowed (Machine.run (Copy.step narrowed) (Copy.start onePair)
      (insertThenCopy (20, 0))) :=
  copied_of_followed narrowed onePair
    (Machine.reach_run_of_obeys (by decide +kernel) (by decide +kernel))

/-- With the same value there, the first row is not copied. -/
example : 1 ∉ (Machine.run (Copy.step narrowed) (Copy.start onePair)
    (insertThenCopy (10, 1))).shadow.keys := by decide +kernel

/-! ### A plain ALTER -/

section

variable {a : PlainAlter K R S U} {c c' : Copy K R S} {k k' : K} {r r' : R}

omit [LinearOrder K] in
/-- Images clash only where the rows do. -/
theorem PlainAlter.clash_project (h : clash a.srcUnique k r k' r' = false) :
    clash a.dstUnique k (a.project r) k' (a.project r') = false := by
  rw [clash_eq_false] at h ⊢
  intro i hi u hu
  obtain ⟨j, hj, hij⟩ := a.same_unique i hi
  rw [hij] at hu ⊢
  exact h j hj u hu

omit [DecidableEq U] in
/-- A plain ALTER keeps the key as it is given. -/
theorem PlainAlter.asGiven : AsGiven a.toAlter c k r := a.as_given _ _ _

/-- The condition on a move: it is not a write, or the write is mirrored. -/
def MirroredMove (a : Alter K R S U) (c : Copy K R S) : Move K R → Prop
  | .write w => Mirrored a c w
  | _ => True

/-- The image of a row clashes with no other row of the shadow, where the row itself clashes
with no other row of the table. -/
theorem clash_shadow (h : Kept a.toAlter c) {v : S} (hv : (k', v) ∈ c.shadow)
    (hfree : ∀ r', (k', r') ∈ c.source → clash a.srcUnique k r k' r' = false) :
    clash a.dstUnique k (a.project r) k' v = false := by
  obtain ⟨r', hr', rfl⟩ := h.sound k' v hv
  exact PlainAlter.clash_project (hfree r' hr')

/-- For a plain ALTER a move is followed where the write is mirrored. -/
theorem followed_of_mirrored {m : Move K R} (h : Kept a.toAlter c)
    (hok : MirroredMove a.toAlter c m) (hm : c.step a.toAlter m = some c') :
    Followed a.toAlter c m := by
  cases m with
  | write w =>
    obtain ⟨src', happly, _, -⟩ := write_eq hm
    refine ⟨hok, fun _ k r hstored => ⟨PlainAlter.asGiven, fun k' v hv _ hold _ => ?_⟩⟩
    exact clash_shadow h hv fun r' hr' => (Write.fits_apply happly hstored hr' hold).2
  | copyRow =>
    intro k r hup
    have hr : (k, r) ∈ c.source := by
      simp only [Copy.upcoming] at hup
      split at hup
      · exact (nextRow_eq_some hup).1
      · cases hup
    refine ⟨PlainAlter.asGiven, or_iff_not_imp_left.mpr fun hk k' v hv => ?_⟩
    have hne : k ≠ k' := by
      rintro rfl
      exact hk (Keyed.key_mem hv)
    exact clash_shadow h hv fun r' hr' => h.unique k r k' r' hr hr' hne
  | _ => trivial

/-- Where the promise holds after a write, the write was mirrored. -/
theorem mirroredMove_of_copied {m : Move K R} (h : Kept a.toAlter c)
    (hm : c.step a.toAlter m = some c') (hc : Copied a.toAlter c') :
    MirroredMove a.toAlter c m := by
  cases m with
  | write w =>
    obtain ⟨src', happly, _, rfl⟩ := write_eq hm
    exact (sound_write_iff h.sound happly fun _ _ _ _ => PlainAlter.asGiven).mp hc.ahead
  | _ => trivial

/-- For a plain ALTER the shadow follows the table all the way through a run, if and only if no
write changes or removes a mirrored row before the trigger for it exists. -/
theorem copied_iff (a : PlainAlter K R S U) (src : Table a.srcUnique) (ms : List (Move K R)) :
    Always (Copy.step a.toAlter) (Copied a.toAlter) (Copy.start src) ms ↔
      Obeys (Copy.step a.toAlter) (MirroredMove a.toAlter) (Copy.start src) ms :=
  Machine.always_iff_obeys (fun _ h => Kept.copied h)
    (fun _ _ _ h hok hm => kept_step h (followed_of_mirrored h hok hm) hm)
    (fun _ _ _ h hm hc => mirroredMove_of_copied h hm hc) (kept_start src) ms

end

/-! ### A row that stays behind -/

/-- An ALTER of a table of numbers, without UNIQUE indexes. -/
def plain : PlainAlter Nat Nat Nat Nat where
  project r := r
  srcUnique := []
  dstUnique := []
  srcCrc _ r := r
  dstCrc _ v := v
  same_unique := by simp
  as_given _ _ _ := rfl

/-- A table with one row. -/
def oneRow : Table plain.srcUnique where
  rows := Keyed.empty.put 1 10
  unique := fun _ _ _ _ _ _ _ => rfl

/-- The application inserts a row after the first `CREATE TRIGGER` and deletes it before the
third one. Then the copy runs undisturbed. -/
def insertThenDelete : List (Move Nat Nat) :=
  [.createTrigger, .write (.insert 5 50), .write (.delete 5), .createTrigger, .createTrigger,
   .readMax, .readBoundary 1000, .copyRow, .endChunk]

/-- The row is in the shadow when the copy returns, and not in the table. -/
theorem stale_row_outlives_the_copy :
    ¬ ∀ (a : PlainAlter Nat Nat Nat Nat) (src : Table a.srcUnique) (ms : List (Move Nat Nat)),
      Always (Copy.step a.toAlter) (Copied a.toAlter) (Copy.start src) ms := by
  intro h
  let c := Machine.run (Copy.step plain.toAlter) (Copy.start oneRow) insertThenDelete
  have hrun : Machine.exec (Copy.step plain.toAlter) (Copy.start oneRow) insertThenDelete = some c :=
    Machine.exec_eq_run (by decide +kernel)
  have hcopied := (h plain oneRow insertThenDelete).exec hrun
  have hphase : c.phase = .checksum [(none, some 1), (some 1, none)] none := rfl
  have hret : c.phase.copyReturned := by
    rw [hphase]
    trivial
  have hstale : (5, 50) ∈ c.shadow := by decide +kernel
  have hgone : 5 ∉ c.source.keys := by decide +kernel
  obtain ⟨r, hr, _⟩ := (hcopied.returned hret 5 50).mp hstale
  exact hgone (Keyed.key_mem hr)

end DbGuard.Osc
