import DbGuard.Osc.Chunks
import DbGuard.Proofs.Osc.Swap

/-!
# `DbGuard.Proofs.Osc.Chunks`: the copy loop covers the table and ends

`Chained` is what the loop of `_copy` makes, whatever the table holds at each query: chunks of
which each starts where the one before it ends, up to the largest key. All facts about the
boundaries are read off a chain. That the loop ends on a table that stays as it is comes from
`remaining`, the number of rows that no chunk has selected yet.

`boundaries_of_run` connects the loop with the machine of `Copy`: the boundaries of the machine
are those of a run of the loop.
-/

set_option autoImplicit false

namespace DbGuard.Osc

open Machine (Reach Free)

variable {K R : Type} [LinearOrder K]

/-- Chunks from `lo` up to `max`, each of which starts where the one before it ends. -/
inductive Chained (max : K) : Option K → List (Chunk K) → Prop
  | last {lo : Option K} (hle : ∀ b ∈ lo, b ≤ max) : Chained max lo [(lo, max)]
  | more {lo : Option K} {hi : K} {chunks : List (Chunk K)} (hlt : above lo hi = true)
      (hle : hi ≤ max) (rest : Chained max (some hi) chunks) : Chained max lo ((lo, hi) :: chunks)

section

variable {max k hi : K} {lo : Option K} {chunks : List (Chunk K)} {t start : Keyed K R}
  {size : Int} {rounds : List (Keyed K R × Int)}

/-! ### The loop makes a chain -/

/-- The next boundary is the key of a row after `lo` and up to `max`. -/
theorem boundary_mem (h : boundary t lo max size = some hi) :
    ∃ r, (hi, r) ∈ t ∧ above lo hi = true ∧ hi ≤ max := by
  obtain ⟨x, hx, rfl⟩ := Option.map_eq_some_iff.mp h
  obtain ⟨hmem, hrange⟩ := Keyed.mem_keep.mp (List.mem_of_getElem? hx)
  obtain ⟨hlt, hle⟩ := inRange_iff.mp hrange
  exact ⟨x.2, hmem, hlt, upto_some.mp hle⟩

/-- The chunks of a loop are chained up to the maximum. -/
theorem copyFrom_chained (hlo : ∀ b ∈ lo, b ≤ max) (h : copyFrom max lo rounds = some chunks) :
    Chained max lo chunks := by
  induction rounds generalizing lo chunks with
  | nil => cases h
  | cons round rounds ih =>
    simp only [copyFrom] at h
    split at h
    · cases h
      exact .last hlo
    · rename_i hi hb
      obtain ⟨-, -, hlt, hle⟩ := boundary_mem hb
      obtain ⟨rest, hrest, rfl⟩ := Option.map_eq_some_iff.mp h
      exact .more hlt hle (ih (by simpa using hle) hrest)

/-! ### The boundaries of a chain -/

/-- No boundary is before the start. -/
theorem Chained.ge_lo (h : Chained max lo chunks) :
    ∀ b ∈ lo, ∀ b' ∈ boundariesOf chunks, b ≤ b' := by
  induction h with
  | last hle => simpa [boundariesOf] using hle
  | @more lo hi chunks hlt hle rest ih =>
    intro b hb b' hb'
    cases hb
    have hlt : b < hi := by simpa [above] using hlt
    rcases List.mem_cons.mp hb' with rfl | hb'
    · exact hlt.le
    · exact hlt.le.trans (ih _ rfl b' hb')

/-- The last boundary is the maximum. -/
theorem Chained.getLast? (h : Chained max lo chunks) :
    (boundariesOf chunks).getLast? = some max := by
  induction h with
  | last hle => rfl
  | more hlt hle rest ih =>
    unfold boundariesOf at ih ⊢
    rw [List.map_cons, List.getLast?_cons, ih]
    rfl

/-- There is a chunk. -/
theorem Chained.ne_nil (h : Chained max lo chunks) : chunks ≠ [] := by
  cases h <;> exact List.cons_ne_nil _ _

/-- The boundaries do not go back. -/
theorem Chained.pairwise_le (h : Chained max lo chunks) :
    (boundariesOf chunks).Pairwise (· ≤ ·) := by
  induction h with
  | last hle => exact List.pairwise_singleton _ _
  | more hlt hle rest ih => exact List.pairwise_cons.mpr ⟨rest.ge_lo _ rfl, ih⟩

/-- All but the last one, chunk by chunk. -/
theorem Chained.dropLast_cons {c : Chunk K} (rest : Chained max lo chunks) :
    (boundariesOf (c :: chunks)).dropLast = c.2 :: (boundariesOf chunks).dropLast := by
  have hne : boundariesOf chunks ≠ [] := by simpa [boundariesOf] using rest.ne_nil
  exact List.dropLast_cons_of_ne_nil hne

/-- All boundaries but the last one are after `lo`. -/
theorem Chained.gt_lo (h : Chained max lo chunks) :
    ∀ b ∈ (boundariesOf chunks).dropLast, above lo b = true := by
  induction h with
  | last hle => simp [boundariesOf]
  | @more lo hi chunks hlt hle rest ih =>
    intro b hb
    rw [rest.dropLast_cons] at hb
    rcases List.mem_cons.mp hb with rfl | hb
    · exact hlt
    · exact above_of_above hlt (ih b hb)

/-- They go forward. -/
theorem Chained.pairwise_lt (h : Chained max lo chunks) :
    (boundariesOf chunks).dropLast.Pairwise (· < ·) := by
  induction h with
  | last hle => exact .nil
  | @more lo hi chunks hlt hle rest ih =>
    rw [rest.dropLast_cons, List.pairwise_cons]
    constructor
    · intro b hb
      simpa [above] using rest.gt_lo b hb
    · exact ih

/-! ### The ranges of the boundaries -/

/-- A key after `lo` is in one of the ranges of sorted boundaries, and any other key in none. -/
theorem countP_chunkRangesFrom {bs : List K} (hbs : bs.Pairwise (· ≤ ·))
    (hlo : ∀ b ∈ lo, ∀ b' ∈ bs, b ≤ b') (k : K) :
    (chunkRangesFrom lo bs).countP (inRange · k) = if above lo k then 1 else 0 := by
  induction bs generalizing lo with
  | nil =>
    simp only [chunkRangesFrom, List.countP_singleton, inRange, upto, Option.all_none, Bool.and_true]
  | cons b bs ih =>
    obtain ⟨hle, hbs⟩ := List.pairwise_cons.mp hbs
    rw [chunkRangesFrom, List.countP_cons, ih hbs (by simpa using hle)]
    have habove : b < k → above lo k = true := by
      intro hlt
      cases lo with
      | none => rfl
      | some l => simpa [above] using (hlo l rfl b List.mem_cons_self).trans_lt hlt
    by_cases hk : b < k
    · have hout : inRange (lo, some b) k = false := by simp [inRange, upto, hk]
      have hin : above (some b) k = true := by simpa [above] using hk
      simp [hout, hin, habove hk]
    · have hin : inRange (lo, some b) k = above lo k := by simp [inRange, upto, not_lt.mp hk]
      have hout : above (some b) k = false := above_some_eq_false.mpr (not_lt.mp hk)
      simp [hin, hout]

/-- The ranges of a chain's boundaries are its chunks and the open range after them. -/
theorem Chained.chunkRanges_eq (h : Chained max lo chunks) :
    chunkRangesFrom lo (boundariesOf chunks) =
      chunks.map (fun c => (c.1, some c.2)) ++ [(some max, none)] := by
  induction h with
  | last hle => rfl
  | @more lo hi chunks hlt hle rest ih =>
    show (lo, some hi) :: chunkRangesFrom (some hi) (boundariesOf chunks) = _
    rw [ih]
    rfl

/-- A key after `lo` and up to `max` is in one chunk of a chain. -/
theorem Chained.countP_selects (h : Chained max lo chunks) (hlt : above lo k = true)
    (hle : k ≤ max) : chunks.countP (·.selects k) = 1 := by
  have hcount := countP_chunkRangesFrom h.pairwise_le h.ge_lo k
  have hopen : inRange (some max, none) k = false := by simp [inRange, above, hle]
  rw [h.chunkRanges_eq, List.countP_append, List.countP_map, hlt, if_pos rfl,
    List.countP_singleton, hopen] at hcount
  exact hcount

/-! ### A table that stays as it is -/

/-- The rows that no chunk has selected yet. -/
def remaining (t : Keyed K R) (lo : Option K) (max : K) : Nat :=
  (t.keep fun k _ => inRange (lo, some max) k).rows.length

/-- A boundary leaves fewer rows. -/
theorem remaining_lt (h : boundary t lo max size = some hi) :
    remaining t (some hi) max < remaining t lo max := by
  obtain ⟨r, hmem, hlt, hle⟩ := boundary_mem h
  have hsub : (t.keep fun k _ => inRange (some hi, some max) k).rows =
      (t.keep fun k _ => inRange (lo, some max) k).rows.filter
        fun x => inRange (some hi, some max) x.1 := by
    simp only [Keyed.keep, List.filter_filter]
    refine List.filter_congr fun x _ => ?_
    rw [Bool.eq_iff_iff, Bool.and_eq_true, and_iff_left_of_imp]
    intro hx
    obtain ⟨habove, hupto⟩ := inRange_iff.mp hx
    exact inRange_iff.mpr ⟨above_of_above hlt habove, hupto⟩
  unfold remaining
  rw [hsub, List.length_filter_lt_length_iff_exists]
  refine ⟨(hi, r), Keyed.mem_keep.mpr ⟨hmem, inRange_iff.mpr ⟨hlt, upto_some.mpr hle⟩⟩, ?_⟩
  simp [inRange, above]

/-- With enough rounds on a table that stays, the loop ends. -/
theorem copyFrom_ends (hfix : ∀ round ∈ rounds, round.1 = t)
    (hlen : remaining t lo max < rounds.length) :
    ∃ chunks, copyFrom max lo rounds = some chunks := by
  induction rounds generalizing lo with
  | nil => exact absurd hlen (Nat.not_lt_zero _)
  | cons round rounds ih =>
    obtain ⟨hround, hfix⟩ := List.forall_mem_cons.mp hfix
    simp only [copyFrom]
    split
    · exact ⟨_, rfl⟩
    · rename_i hi hb
      rw [hround] at hb
      have hless := remaining_lt hb
      have hshort : remaining t (some hi) max < rounds.length := by
        rw [List.length_cons] at hlen
        omega
      obtain ⟨chunks, hchunks⟩ := ih hfix hshort
      rw [hchunks]
      exact ⟨_, rfl⟩

/-- Then there is a chunk for each row that remains, and one more at most. -/
theorem length_copyFrom (hfix : ∀ round ∈ rounds, round.1 = t)
    (h : copyFrom max lo rounds = some chunks) : chunks.length ≤ remaining t lo max + 1 := by
  induction rounds generalizing lo chunks with
  | nil => cases h
  | cons round rounds ih =>
    obtain ⟨hround, hfix⟩ := List.forall_mem_cons.mp hfix
    simp only [copyFrom] at h
    split at h
    · cases h
      simp
    · rename_i hi hb
      rw [hround] at hb
      have hless := remaining_lt hb
      obtain ⟨rest, hrest, rfl⟩ := Option.map_eq_some_iff.mp h
      have hrec := ih hfix hrest
      rw [List.length_cons]
      omega

/-! ### `_copy` -/

/-- The chunks of `_copy` are a chain up to the key that it reads first. -/
theorem copyChunks_chained (hmax : maxPk start = some max)
    (h : copyChunks start rounds = some chunks) : Chained max none chunks := by
  simp only [copyChunks, hmax] at h
  exact copyFrom_chained (by simp) h

/-- No key is after the maximum. -/
theorem le_of_maxPk (hmax : maxPk t = some max) (hk : k ∈ t.keys) : k ≤ max := by
  obtain ⟨x, hx, rfl⟩ := Option.map_eq_some_iff.mp hmax
  obtain ⟨r, hr⟩ := Keyed.mem_keys.mp hk
  exact Keyed.le_of_last? hx hr

/-- No more rows remain than there are. -/
theorem remaining_le (t : Keyed K R) (lo : Option K) (max : K) :
    remaining t lo max ≤ t.rows.length :=
  List.length_filter_le _ _

/-- The boundaries of `_copy` are sorted and end at the largest key, their ranges are a partition
of all keys, and on a table that stays as it is the loop ends, with each row in one chunk. -/
theorem copyChunks_cover (start : Keyed K R) (rounds : List (Keyed K R × Int)) :
    (∀ max chunks, maxPk start = some max → copyChunks start rounds = some chunks →
      (boundariesOf chunks).getLast? = some max ∧
        (boundariesOf chunks).Pairwise (· ≤ ·) ∧
        (boundariesOf chunks).dropLast.Pairwise (· < ·)) ∧
    (∀ chunks, copyChunks start rounds = some chunks →
      ∀ k, (chunkRanges (boundariesOf chunks)).countP (inRange · k) = 1) ∧
    ((∀ round ∈ rounds, round.1 = start) →
      (start.rows.length < rounds.length → ∃ chunks, copyChunks start rounds = some chunks) ∧
      ∀ chunks, copyChunks start rounds = some chunks →
        chunks.length ≤ start.rows.length + 1 ∧
          ∀ k ∈ start.keys, chunks.countP (·.selects k) = 1) := by
  refine ⟨fun max chunks hmax h => ?_, fun chunks h k => ?_, fun hfix => ⟨fun hlen => ?_, ?_⟩⟩
  · have hchain := copyChunks_chained hmax h
    exact ⟨hchain.getLast?, hchain.pairwise_le, hchain.pairwise_lt⟩
  -- The ranges of a copy without rows have no boundary, all others have sorted ones.
  · have hsorted : (boundariesOf chunks).Pairwise (· ≤ ·) := by
      cases hmax : maxPk start with
      | none =>
        simp only [copyChunks, hmax, Option.some.injEq] at h
        subst h
        exact .nil
      | some max => exact (copyChunks_chained hmax h).pairwise_le
    exact countP_chunkRangesFrom hsorted (by simp) k
  -- The rounds are enough: each goes on by a row at least, so the loop comes to its end.
  · unfold copyChunks
    cases maxPk start with
    | none => exact ⟨[], rfl⟩
    | some max => exact copyFrom_ends hfix ((remaining_le start none max).trans_lt hlen)
  -- On a table that stays, each key is selected by one chunk.
  · intro chunks h
    cases hmax : maxPk start with
    | none =>
      simp only [copyChunks, hmax, Option.some.injEq] at h
      subst h
      have hempty : ∀ x, x ∉ start :=
        Keyed.notMem_of_last?_eq_none (Option.map_eq_none_iff.mp hmax)
      refine ⟨Nat.zero_le _, fun k hk => ?_⟩
      obtain ⟨r, hr⟩ := Keyed.mem_keys.mp hk
      exact absurd hr (hempty _)
    | some max =>
      have hchain := copyChunks_chained hmax h
      simp only [copyChunks, hmax] at h
      have hlen := length_copyFrom hfix h
      have hle := remaining_le start none max
      exact ⟨by omega, fun k hk => hchain.countP_selects rfl (le_of_maxPk hmax hk)⟩

end

/-- Four rows. -/
def fourRows : Keyed Nat Unit where
  rows := [(1, ()), (2, ()), (3, ()), (4, ())]
  sorted := by decide

/-- Two chunks of two rows, and the empty one that ends the loop. -/
theorem copyChunks_cover_fourRows :
    ∃ chunks, copyChunks fourRows (List.replicate 5 (fourRows, 2)) = some chunks ∧
      boundariesOf chunks = [2, 4, 4] ∧ (boundariesOf chunks).getLast? = some 4 ∧
      chunks.length ≤ fourRows.rows.length + 1 ∧
      (chunkRanges (boundariesOf chunks)).countP (inRange · 3) = 1 := by
  obtain ⟨hends, hparts, hfix⟩ := copyChunks_cover fourRows (List.replicate 5 (fourRows, 2))
  obtain ⟨hterm, hlen⟩ :=
    hfix fun round hround => congrArg Prod.fst (List.eq_of_mem_replicate hround)
  obtain ⟨chunks, h⟩ := hterm (by decide)
  obtain ⟨hlast, -⟩ := hends 4 chunks (by decide) h
  refine ⟨chunks, h, ?_, hlast, (hlen chunks h).1, hparts chunks h 3⟩
  have heq : copyChunks fourRows (List.replicate 5 (fourRows, 2)) =
      some [(none, 2), (some 2, 4), (some 4, 4)] := by decide
  rw [heq] at h
  cases h
  rfl

/-! ### The loop in the machine -/

section
variable {S U : Type} [DecidableEq U] {a : Alter K R S U} {c c' : Copy K R S}

/-- The chunks that the loop has behind it once the tables and sizes of `pre` are used up. -/
def Behind (start : Keyed K R) (pre : List (Keyed K R × Int)) (done : List (Chunk K)) (max : K)
    (lo : Option K) : Prop :=
  ∀ rounds, copyChunks start (pre ++ rounds) = (copyFrom max lo rounds).map (done ++ ·)

/-- The boundaries are those of a run of the loop. -/
def Looped (R : Type) (boundaries : List K) : Prop :=
  ∃ (start : Keyed K R) (rounds : List (Keyed K R × Int)) (chunks : List (Chunk K)),
    copyChunks start rounds = some chunks ∧ boundaries = boundariesOf chunks

/-- The machine is where a run of the loop is. -/
def InLoop (c : Copy K R S) : Prop :=
  match c.phase with
  | .triggers _ | .maxPk => c.boundaries = []
  | .boundary max lo => ∃ (start : Keyed K R) (pre : List (Keyed K R × Int))
      (done : List (Chunk K)), c.boundaries = boundariesOf done ∧ Behind start pre done max lo
  | .chunk max lo hi last _ _ => ∃ (start : Keyed K R) (pre : List (Keyed K R × Int))
      (done : List (Chunk K)), c.boundaries = boundariesOf done ∧
      if last then copyChunks start pre = some (done ++ [(lo, hi)])
      else Behind start pre (done ++ [(lo, hi)]) max (some hi)
  | _ => Looped R c.boundaries

/-- The loop goes on while the maximum is not reached. -/
theorem inLoop_step {m : Move K R} (h : InLoop c) (hm : c.step a m = some c') : InLoop c' := by
  cases m with
  -- The writer moves the source, and the loop has read its boundaries already.
  | write w =>
    obtain ⟨src', _, _, rfl⟩ := write_eq hm
    exact h
  | createTrigger =>
    simp only [Copy.step] at hm
    split at hm
    · rename_i e todo hp
      simp only [InLoop, hp] at h
      cases hm
      -- The loop begins with the last trigger.
      cases todo with
      | nil => exact h
      | cons e' todo => exact h
    · cases hm
  -- `SELECT MAX` is where the loop takes its start: no chunk is done yet.
  | readMax =>
    simp only [Copy.step] at hm
    split at hm
    · rename_i hp
      simp only [InLoop, hp] at h
      -- An empty table has no chunk, and the copy goes to the checksums at once.
      split at hm
      · rename_i hmax
        cases hm
        exact ⟨c.source, [], [], by simp [copyChunks, hmax], h⟩
      · rename_i max hmax
        cases hm
        exact ⟨c.source, [], [], h, fun rounds => by simp [copyChunks, hmax]⟩
    · cases hm
  | readBoundary size =>
    simp only [Copy.step] at hm
    split at hm
    · rename_i max lo hp
      simp only [InLoop, hp] at h
      obtain ⟨start, pre, done, hbs, hbehind⟩ := h
      split at hm
      -- The range behind the last boundary is empty, so this chunk is the last one and ends at
      -- `max`.
      · rename_i hb
        cases hm
        refine ⟨start, pre ++ [(c.source, size)], done, hbs, ?_⟩
        rw [if_pos rfl, hbehind]
        simp [copyFrom, hb]
      -- The boundary is a key that exists, and the loop goes on behind it.
      · rename_i hi hb
        cases hm
        refine ⟨start, pre ++ [(c.source, size)], done, hbs, ?_⟩
        rw [if_neg Bool.false_ne_true]
        intro rounds
        rw [List.append_assoc, hbehind]
        simp [copyFrom, hb, Function.comp_def]
    · cases hm
  | copyRow =>
    simp only [Copy.step] at hm
    split at hm
    · rename_i max lo hi last pos written hp
      obtain ⟨x, -, rfl⟩ := Option.map_eq_some_iff.mp hm
      simpa only [InLoop, hp] using h
    · cases hm
  | endChunk =>
    simp only [Copy.step] at hm
    split at hm
    · rename_i max lo hi last pos written hp
      -- `boundaries` and `done` grow together.
      simp only [InLoop, hp] at h
      obtain ⟨start, pre, done, hbs, hrun⟩ := h
      have hbs' : c.boundaries ++ [hi] = boundariesOf (done ++ [(lo, hi)]) := by
        simp [hbs, boundariesOf]
      split at hm
      · cases hm
      · cases hm
        cases last with
        | true => exact ⟨start, pre, _, hrun, hbs'⟩
        | false => exact ⟨start, pre, _, hbs', hrun⟩
    · cases hm
  | undoChunk =>
    simp only [Copy.step] at hm
    split at hm
    · rename_i hp
      cases hm
      simpa only [InLoop, hp] using h
    · cases hm
  -- The checksums come after the loop and leave its boundaries.
  | sumSource | undoRange =>
    simp only [Copy.step] at hm
    split at hm
    · rename_i hp
      cases hm
      simpa only [InLoop, hp] using h
    · cases hm
  | sumShadow =>
    simp only [Copy.step] at hm
    split at hm
    · rename_i hp
      cases hm
      simpa only [InLoop, hp] using h
    · cases hm
  | compare =>
    simp only [Copy.step] at hm
    split at hm
    · rename_i hp
      simp only [InLoop, hp] at h
      cases hm
      by_cases hempty : (compareChecksums c.sums).isEmpty = true
      · simpa only [InLoop, if_pos hempty] using h
      · simpa only [InLoop, if_neg hempty] using h
    · cases hm
  | rename =>
    simp only [Copy.step] at hm
    split at hm
    · rename_i hp
      cases hm
      simpa only [InLoop, hp] using h
    · cases hm

/-- Once `_copy` has returned, the boundaries of the machine are those of a run of the loop. -/
theorem boundaries_of_run {src : Table a.srcUnique}
    (hrun : Reach (Copy.step a) Free (Copy.start src) c) (hret : c.phase.copyReturned) :
    Looped R c.boundaries := by
  have hloop : InLoop c := hrun.invariant rfl fun _ _ _ _ h _ hm => inLoop_step h hm
  unfold InLoop at hloop
  cases hp : c.phase <;> simp only [hp, Phase.copyReturned] at hloop hret
  all_goals exact hloop

end

end DbGuard.Osc
