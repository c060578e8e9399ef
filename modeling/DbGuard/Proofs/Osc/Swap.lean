import DbGuard.Osc.Preflight
import DbGuard.Proofs.Osc.Phases
import Mathlib.Algebra.GroupWithZero.Nat

/-!
# `DbGuard.Proofs.Osc.Swap`: what the RENAME finds in the shadow

The copy for any ALTER, one that adds a UNIQUE index included. A row of the table can then be
missing in the shadow: INSERT IGNORE skips it, or the REPLACE of a trigger deletes it for
another row with the same values. The checksums find this, but each range is summed once, and
the application goes on writing until the swap.

`Counted` is the invariant: the rows of the ranges that were summed and agreed are all in
the shadow. Where a range agrees, its rows are counted on both sides. If the shadow has no
row there that the table lacks, equal counts mean that nothing is missing
(`Keyed.keys_eq_of_length_le`).

`Lasting` is the condition on the moves. No write stores values that clash with a row of the
shadow whose range was summed, a row that is written into such a range is stored under its
own key, and no sums agree by chance over a range in which the shadow has a row that the
table lacks. `present_at_rename` says that under it no row is lost. `row_lost_by_the_swap` is
a run of an ALTER that the checks accept in which one is.
-/

set_option autoImplicit false

namespace DbGuard.Osc

open Machine (Reach Free)

variable {K R S U : Type} [LinearOrder K] [DecidableEq U]

/-- The ranges of a key have been summed. -/
def Phase.summed : Phase K → K → Prop
  | .checksum todo _, k => ∀ rg ∈ todo, inRange rg k = false
  | .swap, _ => True
  | .renamed, _ => True
  | _, _ => False

/-- The sums of this step agree although the shadow has a row in the range whose key the
table lacks. -/
def Coincidence (a : Alter K R S U) (c : Copy K R S) : Prop :=
  ∃ rg todo src, c.phase = .checksum (rg :: todo) (some src) ∧
    src = checksum a.dstCrc c.shadow rg ∧
    ∃ k ∈ c.shadow.keys, inRange rg k = true ∧ k ∉ c.source.keys

/-- The condition on a move. The REPLACE of a write stores its row under its own key where
the range of the key was summed, and stores no values that clash with a row of the shadow
that was summed, unless it is the row that the write replaces. -/
def Lasting (a : Alter K R S U) (c : Copy K R S) : Move K R → Prop
  | .write w =>
    (∀ k r, w.stored = some (k, r) → c.phase.summed k →
      (a.stores c.puts k (a.project r)).1 = k) ∧
    ∀ x, w.image a c.puts = some x → ∀ k v, (k, v) ∈ c.shadow → k ≠ x.1 → w.old ≠ some k →
      c.phase.summed k → clash a.dstUnique x.1 x.2 k v = false
  | .sumShadow => ¬ Coincidence a c
  | _ => True

instance (phase : Phase K) (k : K) : Decidable (phase.summed k) :=
  match phase with
  | .checksum todo _ => inferInstanceAs (Decidable (∀ rg ∈ todo, inRange rg k = false))
  | .swap | .renamed => .isTrue trivial
  | .triggers _ | .maxPk | .boundary _ _ | .chunk _ _ _ _ _ _ | .mismatch => .isFalse id

instance (a : Alter K R S U) (c : Copy K R S) : Decidable (Coincidence a c) :=
  match hp : c.phase with
  | .checksum (rg :: todo) (some src) =>
    decidable_of_iff (src = checksum a.dstCrc c.shadow rg ∧
        ∃ k ∈ c.shadow.keys, inRange rg k = true ∧ ∀ k' ∈ c.source.keys, k' ≠ k) (by
      constructor
      · rintro ⟨hsum, k, hk, hin, hstale⟩
        exact ⟨rg, todo, src, hp, hsum, k, hk, hin, fun hmem => hstale k hmem rfl⟩
      · rintro ⟨rg', todo', src', hp', hsum, k, hk, hin, hstale⟩
        rw [hp] at hp'
        cases hp'
        exact ⟨hsum, k, hk, hin, fun k' hmem heq => hstale (heq ▸ hmem)⟩)
  | .checksum [] _ | .checksum _ none | .triggers _ | .maxPk | .boundary _ _
  | .chunk _ _ _ _ _ _ | .swap | .renamed | .mismatch => .isFalse (by simp [Coincidence, hp])

instance (a : Alter K R S U) (c : Copy K R S) (m : Move K R) : Decidable (Lasting a c m) :=
  match m with
  | .write w =>
    decidable_of_iff ((∀ x ∈ w.stored, c.phase.summed x.1 →
        (a.stores c.puts x.1 (a.project x.2)).1 = x.1) ∧
      ∀ x ∈ w.image a c.puts, ∀ y ∈ c.shadow.rows, y.1 ≠ x.1 → w.old ≠ some y.1 →
        c.phase.summed y.1 → clash a.dstUnique x.1 x.2 y.1 y.2 = false) (by
      simp [Lasting, Keyed.mem_rows])
  | .sumShadow => inferInstanceAs (Decidable (¬ Coincidence a c))
  | .createTrigger | .readMax | .readBoundary _ | .copyRow | .endChunk | .undoChunk
  | .sumSource | .undoRange | .compare | .rename => .isTrue trivial

/-- The invariant of the checksums. -/
structure Counted (a : Alter K R S U) (c : Copy K R S) : Prop where
  shape : Shape c
  read : ∀ rg todo src, c.phase = .checksum (rg :: todo) (some src) →
    src = checksum a.srcCrc c.source rg
  present : (∀ s ∈ c.sums, s.agrees = true) → ∀ k r, (k, r) ∈ c.source → c.phase.summed k →
    k ∈ c.shadow.keys
  agreed : c.phase = .swap ∨ c.phase = .renamed → ∀ s ∈ c.sums, s.agrees = true

section

variable {a : Alter K R S U} {c c' : Copy K R S} {k k' : K} {r r' : R}

/-- The ranges of a list of boundaries leave out no key. -/
theorem exists_chunkRanges (lo : Option K) (bs : List K) (h : above lo k = true) :
    ∃ rg ∈ chunkRangesFrom lo bs, inRange rg k = true := by
  induction bs generalizing lo with
  | nil => exact ⟨(lo, none), List.mem_singleton_self _, inRange_iff.mpr ⟨h, rfl⟩⟩
  | cons b bs ih =>
    by_cases hle : k ≤ b
    · exact ⟨(lo, some b), List.mem_cons_self, inRange_iff.mpr ⟨h, upto_some.mpr hle⟩⟩
    · obtain ⟨rg, hrg, hin⟩ := ih (some b) (by simpa [above] using hle)
      exact ⟨rg, List.mem_cons_of_mem _ hrg, hin⟩

/-- At the start of the checksums nothing is summed. -/
theorem not_summed_chunkRanges (bs : List K) : ¬ (Phase.checksum (chunkRanges bs) none).summed k := by
  intro h
  obtain ⟨rg, hrg, hin⟩ := exists_chunkRanges (k := k) none bs rfl
  rw [h rg hrg] at hin
  cases hin

omit [DecidableEq U] in
/-- A range whose sums agree, without a row that the table lacks, has all rows of the table. -/
theorem mem_keys_of_agrees {rg : Option K × Option K}
    (hcnt : (checksum a.srcCrc c.source rg).1 = (checksum a.dstCrc c.shadow rg).1)
    (hsub : ∀ k ∈ c.shadow.keys, inRange rg k = true → k ∈ c.source.keys)
    (hr : (k, r) ∈ c.source) (hk : inRange rg k = true) : k ∈ c.shadow.keys := by
  let src := c.source.keep fun k _ => inRange rg k
  let dst := c.shadow.keep fun k _ => inRange rg k
  have hkeys : ∀ k ∈ dst.keys, k ∈ src.keys := by
    intro k hk
    obtain ⟨v, hv⟩ := Keyed.mem_keys.mp hk
    obtain ⟨hmem, hin⟩ := Keyed.mem_keep.mp hv
    obtain ⟨r, hr⟩ := Keyed.mem_keys.mp (hsub k (Keyed.key_mem hmem) hin)
    exact Keyed.mem_keys.mpr ⟨r, Keyed.mem_keep.mpr ⟨hr, hin⟩⟩
  have hmem : k ∈ dst.keys :=
    Keyed.keys_eq_of_length_le hkeys (le_of_eq hcnt)
      (Keyed.mem_keys.mpr ⟨r, Keyed.mem_keep.mpr ⟨hr, hk⟩⟩)
  obtain ⟨v, hv⟩ := Keyed.mem_keys.mp hmem
  exact Keyed.key_mem (Keyed.mem_keep.mp hv).1

/-! ### Each move -/

/-- The copy at its start. -/
theorem counted_start (src : Table a.srcUnique) : Counted a (Copy.start src) where
  shape := ⟨rfl, rfl⟩
  read := by
    intro rg todo s h
    cases h
  present := fun _ _ _ _ h => h.elim
  agreed := by
    rintro (h | h) <;> cases h

omit [LinearOrder K] in
/-- A write touches the key that it stores under. -/
theorem touches_of_stored {w : Write K R} (h : w.stored = some (k, r)) : k ∈ w.touches := by
  cases w <;> simp_all [Write.stored, Write.touches]

omit [LinearOrder K] in
/-- A write touches the key of the row that it replaces. -/
theorem touches_of_old {w : Write K R} (h : w.old = some k) : k ∈ w.touches := by
  cases w <;> simp_all [Write.old, Write.touches]

/-- What the trigger of a write deletes by its key is the old row. -/
theorem removed_ne_of_old {w : Write K R} (h : w.old ≠ some k) :
    w.removed ≠ some k := by
  cases w <;> simp_all [Write.old, Write.removed]

/-- A write that touches no key of a range leaves its sums as they are. -/
theorem checksum_apply {src src' : Keyed K R} {w : Write K R} {rg : Option K × Option K}
    (hw : w.apply a.srcUnique src = some src') (hfree : ∀ k ∈ w.touches, inRange rg k = false) :
    checksum a.srcCrc src' rg = checksum a.srcCrc src rg := by
  have hrows : (src'.keep fun k _ => inRange rg k).rows = (src.keep fun k _ => inRange rg k).rows := by
    refine Keyed.rows_eq fun k r => ?_
    rw [Keyed.mem_keep, Keyed.mem_keep, Write.mem_apply hw]
    constructor
    · rintro ⟨hstored | ⟨_, hmem⟩, hin⟩
      · rw [hfree k (touches_of_stored hstored)] at hin
        cases hin
      · exact ⟨hmem, hin⟩
    · rintro ⟨hmem, hin⟩
      refine ⟨.inr ⟨fun hold => ?_, hmem⟩, hin⟩
      rw [hfree k (touches_of_old hold)] at hin
      cases hin
  simp only [checksum, hrows]

/-- All triggers exist where something is summed. -/
theorem installed_of_summed (h : Shape c) (hk : c.phase.summed k) : c.installed = triggerSql := by
  unfold Shape at h
  cases hp : c.phase <;> simp only [hp, Phase.summed] at h hk
  all_goals exact h

/-- A write that lasts. -/
theorem Counted.write {w : Write K R} (h : Counted a c) (hok : Lasting a c (.write w))
    (hm : c.step a (.write w) = some c') : Counted a c' := by
  have hshape := shape_step h.shape hm
  obtain ⟨src', happly, hfree, rfl⟩ := write_eq hm
  refine ⟨hshape, ?_, ?_, h.agreed⟩
  · intro rg todo s hp
    have hin : ∀ k ∈ w.touches, inRange rg k = false := by
      intro k hk
      have hunlocked := hfree k hk
      have hp' : c.phase = .checksum (rg :: todo) (some s) := hp
      rwa [Copy.locked, hp'] at hunlocked
    exact (h.read rg todo s hp).trans (checksum_apply happly hin).symm
  · intro hagree k r hr hk
    have he : w.event ∈ c.installed := by
      rw [installed_of_summed h.shape hk]
      exact event_mem_triggerSql w
    obtain ⟨hown, hfree⟩ := hok
    -- Whatever the REPLACE stores under a key, the key is there.
    have hput : ∀ x, w.image a c.puts = some x →
        x.1 ∈ (w.mirror a c.puts c.installed c.shadow).keys := fun x hx =>
      Keyed.key_mem ((Write.mem_mirror he).mpr (.inl hx))
    rcases (Write.mem_apply happly).mp hr with hstored | ⟨hold, hmem⟩
    · have himage : w.image a c.puts = some (a.stores c.puts k (a.project r)) := by
        rw [Write.image, hstored, Option.map_some]
      have hkey := hput _ himage
      rwa [hown k r hstored hk] at hkey
    · obtain ⟨v, hv⟩ := Keyed.mem_keys.mp (h.present hagree k r hmem hk)
      by_cases hhit : ∃ x, w.image a c.puts = some x ∧ k = x.1
      · obtain ⟨x, hx, rfl⟩ := hhit
        exact hput x hx
      · have hne : ∀ x, w.image a c.puts = some x → k ≠ x.1 := fun x hx heq =>
          hhit ⟨x, hx, heq⟩
        exact Keyed.key_mem ((Write.mem_mirror he).mpr (.inr ⟨hv, removed_ne_of_old hold,
          fun x hx => ⟨hne x hx, hfree x hx k v hv (hne x hx) hold hk⟩⟩))

omit [DecidableEq U] in
/-- Phases in which nothing is summed and the open transaction has read nothing. -/
theorem Counted.of_idle (hshape : Shape c')
    (hread : ∀ rg todo src, c'.phase ≠ .checksum (rg :: todo) (some src))
    (hsummed : ∀ k, ¬ c'.phase.summed k) (hend : c'.phase ≠ .swap ∧ c'.phase ≠ .renamed) :
    Counted a c' where
  shape := hshape
  read := fun rg todo src hp => absurd hp (hread rg todo src)
  present := fun _ k _ _ hk => absurd hk (hsummed k)
  agreed := by
    rintro (hp | hp)
    · exact absurd hp hend.1
    · exact absurd hp hend.2

/-- The checksum of the shadow. -/
theorem Counted.sumShadow (h : Counted a c) (hok : Lasting a c .sumShadow)
    (hm : c.step a .sumShadow = some c') : Counted a c' := by
  have hshape := shape_step h.shape hm
  simp only [Copy.step] at hm
  split at hm
  -- The second of the two sums is taken here.
  · rename_i rg todo s hp
    cases hm
    refine ⟨hshape, by simp, ?_, by simp⟩
    intro hagree k r hr hk
    -- The sums taken before agree as well.
    have hbefore : ∀ s ∈ c.sums, s.agrees = true := fun s hs =>
      hagree s (List.mem_append_left _ hs)
    -- This sum is the shadow's own, and it agrees with that of the table.
    have hnow : s = checksum a.dstCrc c.shadow rg := by
      have hs : s.1 = (checksum a.dstCrc c.shadow rg).1 ∧
          s.2 = (checksum a.dstCrc c.shadow rg).2 := by
        simpa [ChunkSum.agrees] using hagree _ (List.mem_append_right _ (List.mem_singleton_self _))
      exact Prod.ext hs.1 hs.2
    by_cases hin : inRange rg k = true
    · -- The range has no row that the table lacks, so equal counts leave none out.
      refine mem_keys_of_agrees (a := a) ?_ ?_ hr hin
      · rw [← h.read rg todo s hp, hnow]
      · intro k' hk' hin'
        by_contra hstale
        exact hok ⟨rg, todo, s, hp, hnow, k', hk', hin', hstale⟩
    -- Outside the range the earlier sums decide.
    · refine h.present hbefore k r hr ?_
      rw [hp]
      intro rg' hrg'
      rcases List.mem_cons.mp hrg' with rfl | hrg'
      · simpa using hin
      · exact hk rg' hrg'
  · cases hm

/-- Every step of the copy keeps what it has counted. -/
theorem counted_step {m : Move K R} (h : Counted a c) (hok : Lasting a c m)
    (hm : c.step a m = some c') : Counted a c' := by
  have hshape := shape_step h.shape hm
  cases m with
  -- The two steps that move the counts: a write, and the checksum of the shadow.
  | write w => exact h.write hok hm
  | sumShadow => exact h.sumShadow hok hm
  -- Before the checksums nothing is counted, so only the shape has to hold.
  | createTrigger =>
    simp only [Copy.step] at hm
    split at hm
    · rename_i e todo hp
      cases hm
      cases todo <;> exact .of_idle hshape (by simp) (fun _ hk => hk) (by simp)
    · cases hm
  | readMax =>
    simp only [Copy.step] at hm
    split at hm
    · split at hm
      · cases hm
        -- No row: the one range is the whole key space, and it is not summed yet.
        exact .of_idle hshape (by simp) (fun k => not_summed_chunkRanges []) (by simp)
      · cases hm
        exact .of_idle hshape (by simp) (fun _ hk => hk) (by simp)
    · cases hm
  | readBoundary size =>
    simp only [Copy.step] at hm
    split at hm
    · split at hm <;>
      · cases hm
        exact .of_idle hshape (by simp) (fun _ hk => hk) (by simp)
    · cases hm
  | copyRow =>
    simp only [Copy.step] at hm
    split at hm
    · obtain ⟨x, _, rfl⟩ := Option.map_eq_some_iff.mp hm
      exact .of_idle hshape (by simp) (fun _ hk => hk) (by simp)
    · cases hm
  | endChunk =>
    simp only [Copy.step] at hm
    split at hm
    · rename_i max lo hi last pos written hp
      split at hm
      · cases hm
      · cases hm
        -- After the last chunk the ranges are those of the checksums, none of them summed.
        cases last with
        | true => exact .of_idle hshape (by simp) (fun k => not_summed_chunkRanges _) (by simp)
        | false => exact .of_idle hshape (by simp) (fun _ hk => hk) (by simp)
    · cases hm
  | undoChunk =>
    simp only [Copy.step] at hm
    split at hm
    · cases hm
      exact .of_idle hshape (by simp) (fun _ hk => hk) (by simp)
    · cases hm
  | sumSource =>
    simp only [Copy.step] at hm
    split at hm
    · rename_i rg todo hp
      cases hm
      -- The sum of the source is that of its rows at this moment.
      refine ⟨hshape, ?_, fun hagree k r hr hk => h.present hagree k r hr (by rwa [hp]), by simp⟩
      intro rg' todo' s hp'
      cases hp'
      rfl
    · cases hm
  | undoRange =>
    simp only [Copy.step] at hm
    split at hm
    · rename_i todo s hp
      -- The ranges that are summed already stay as they are.
      cases hm
      exact ⟨hshape, by simp, fun hagree k r hr hk => h.present hagree k r hr (by rwa [hp]),
        by simp⟩
    · cases hm
  | compare =>
    simp only [Copy.step] at hm
    split at hm
    · rename_i hp
      cases hm
      by_cases hempty : (compareChecksums c.sums).isEmpty = true
      -- No mismatch: every pair of checksums agrees, and so do the rows of the ranges.
      · have hagree : ∀ s ∈ c.sums, s.agrees = true := by
          simpa [compareChecksums, List.isEmpty_iff, List.filter_eq_nil_iff] using hempty
        refine ⟨hshape, by simp [hempty], ?_, fun _ => hagree⟩
        intro _ k r hr _
        exact h.present hagree k r hr (by simp [hp, Phase.summed])
      · simp only [if_neg hempty] at hshape ⊢
        exact .of_idle hshape (by simp) (fun _ hk => hk) (by simp)
    · cases hm
  | rename =>
    simp only [Copy.step] at hm
    split at hm
    -- The swap comes only after all of them agreed.
    · rename_i hp
      cases hm
      have hagree := h.agreed (.inl hp)
      refine ⟨hshape, by simp, ?_, fun _ => hagree⟩
      intro _ k r hr _
      exact h.present hagree k r hr (by simp [hp, Phase.summed])
    · cases hm

/-- A run whose moves are all `Lasting` loses no row: when the RENAME is made, every row of the
table is in the shadow under its key. -/
theorem present_at_rename (a : Alter K R S U) (src : Table a.srcUnique) {c : Copy K R S}
    (hrun : Reach (Copy.step a) (Lasting a) (Copy.start src) c) (hren : c.phase = .renamed) :
    ∀ k r, (k, r) ∈ c.source → k ∈ c.shadow.keys := by
  have hcounted : Counted a c :=
    hrun.invariant (counted_start src) fun _ _ _ _ h hok hm => counted_step h hok hm
  intro k r hr
  refine hcounted.present (hcounted.agreed (.inr hren)) k r hr ?_
  rw [hren]
  trivial

end

/-! ### A row that is lost -/

/-- A table of addresses. -/
def users : TableInfo where
  db := "app"
  name := "users"
  columns := [⟨"id", "bigint", false, none, ""⟩, ⟨"email", "varchar(64)", true, none, ""⟩]
  pk := ["id"]
  engine := some "InnoDB"

/-- `ADD UNIQUE INDEX (email)`. -/
def addUnique : Change String where
  src := users
  shadow := { users with name := "__osc_new_users", uniqueNonPk := ["email"] }
  spec := ⟨"ADD UNIQUE INDEX (email)",
    [{ text := "ADD UNIQUE INDEX (email)", kind := .addIndex, unique := true }]⟩
  srcUnique := []
  dstUnique := [["email"]]
  defaults := fun _ => none
  crc := fun values => BitVec.ofNat 32 ((values.map fun v => (v.getD "").length).sum)

/-- The checks let it through. -/
example : addUnique.accepted = true := by decide +kernel

/-- The row of a user. -/
def user (email : String) : Row String := fun col => if col = "email" then some email else none

/-- One user. -/
def oneUser : Table (addUnique.alter Nat storesAll).srcUnique where
  rows := Keyed.empty.put 1 (user "a@x")
  unique := fun _ _ _ _ _ _ _ => rfl

/-- The table is copied and the first range is summed. Then a second user is inserted, and the
last range is summed. -/
def insertAfterSum (email : String) : List (Move Nat (Row String)) :=
  [.createTrigger, .createTrigger, .createTrigger, .readMax, .readBoundary 1000, .copyRow,
   .endChunk, .sumSource, .sumShadow, .write (.insert 2 (user email)), .sumSource, .sumShadow,
   .compare, .rename]

/-- The second user has the address of the first. The REPLACE of the INSERT trigger deletes the
first user from the shadow, and no checksum sees it. -/
theorem row_lost_by_the_swap :
    ¬ ∀ (ch : Change String), ch.accepted = true →
      ∀ (src : Table (ch.alter Nat storesAll).srcUnique)
        (c : Copy Nat (Row String) (Row String)),
        Reach (Copy.step (ch.alter Nat storesAll)) Free (Copy.start src) c →
          c.phase = .renamed → ∀ k r, (k, r) ∈ c.source → k ∈ c.shadow.keys := by
  intro h
  let c := Machine.run (Copy.step (addUnique.alter Nat storesAll)) (Copy.start oneUser)
    (insertAfterSum "a@x")
  have hrun : Reach (Copy.step (addUnique.alter Nat storesAll)) Free (Copy.start oneUser) c :=
    Machine.reach_run (by decide +kernel)
  have hren : c.phase = .renamed := rfl
  have hsrc : 1 ∈ c.source.keys := by decide +kernel
  have hgone : 1 ∉ c.shadow.keys := by decide +kernel
  obtain ⟨r, hr⟩ := Keyed.mem_keys.mp hsrc
  exact hgone (h addUnique (by decide +kernel) oneUser c hrun hren 1 r hr)

/-- A user with another address does no harm. -/
theorem user_kept_by_the_swap :
    let c := Machine.run (Copy.step (addUnique.alter Nat storesAll)) (Copy.start oneUser)
      (insertAfterSum "b@x")
    ∀ k r, (k, r) ∈ c.source → k ∈ c.shadow.keys :=
  present_at_rename (addUnique.alter Nat storesAll) oneUser
    (Machine.reach_run_of_obeys (by decide +kernel) (by decide +kernel)) rfl

/-- An AUTO_INCREMENT key. The server stores a generated one in place of 0. -/
def generated (n k : Nat) (r : Row String) : Nat × Row String :=
  (if k = 0 then 100 + n else k, r)

/-- A row whose key becomes 0 after the checksums is not in the shadow under it. -/
example :
    let c := Machine.run (Copy.step (addUnique.alter Nat generated)) (Copy.start oneUser)
      [.createTrigger, .createTrigger, .createTrigger, .readMax, .readBoundary 1000, .copyRow,
       .endChunk, .sumSource, .sumShadow, .sumSource, .sumShadow,
       .write (.update 1 0 (user "a@x")), .compare, .rename]
    c.source.keys = [0] ∧ c.shadow.keys = [101] := by decide +kernel

end DbGuard.Osc
