import DbGuard.Proofs.Osc.Mirror

/-!
# `DbGuard.Proofs.Osc.Phases`: the runner's place in the copy

What holds of the runner's own data in each phase (`Shape`): which triggers exist, where the
boundaries end, and that an open chunk is a range below the maximum which its position has
not left. `shape_step` is the step lemma. It holds for every ALTER and every write.
-/

set_option autoImplicit false

namespace DbGuard.Osc

variable {K R S U : Type} [LinearOrder K] [DecidableEq U]

/-- The keys that are done in a phase. -/
def Phase.covers : Phase K → K → Prop
  | .triggers _, _ => False
  | .maxPk, _ => False
  | .boundary max lo, k => above lo k = false ∨ max < k
  | .chunk max _ _ _ pos _, k => above pos k = false ∨ max < k
  | _, _ => True

/-- `_copy` has returned. -/
def Phase.copyReturned : Phase K → Prop
  | .checksum _ _ | .swap | .renamed | .mismatch => True
  | _ => False

/-- What the runner knows in each phase. -/
def Shape (c : Copy K R S) : Prop :=
  match c.phase with
  | .triggers todo => c.installed ++ todo = triggerSql ∧ c.boundaries = []
  | .maxPk => c.installed = triggerSql ∧ c.boundaries = []
  | .boundary _ lo => c.installed = triggerSql ∧ c.boundaries.getLast? = lo
  | .chunk max lo hi last pos _ =>
    c.installed = triggerSql ∧ c.boundaries.getLast? = lo ∧ hi ≤ max ∧ (last = true → hi = max) ∧
      ∀ k, above pos k = true → above lo k = true
  | _ => c.installed = triggerSql

section

variable {a : Alter K R S U} {c c' : Copy K R S} {k k' b max : K} {r r' : R}

/-- A key is not behind a boundary if it is at most that. -/
theorem above_some_eq_false : above (some b) k = false ↔ k ≤ b := by
  simp [above]

/-- A key is in a range if it is behind its start and up to its end. -/
theorem inRange_iff {rg : Option K × Option K} :
    inRange rg k = true ↔ above rg.1 k = true ∧ upto rg.2 k = true := by
  simp [inRange]

/-- A key is up to a boundary if it is at most that. -/
@[simp] theorem upto_some : upto (some b) k = true ↔ k ≤ b := by
  simp [upto]

/-- All triggers exist where something is covered. -/
theorem installed_of_covers (h : Shape c) (hk : c.phase.covers k) : c.installed = triggerSql := by
  unfold Shape at h
  cases hp : c.phase <;> simp only [hp, Phase.covers] at h hk
  all_goals first
    | exact h.1
    | exact h

omit [LinearOrder K] in
/-- Each write has its trigger among the three. -/
theorem event_mem_triggerSql (w : Write K R) : w.event ∈ triggerSql := by
  cases w <;> simp [Write.event, triggerSql]

/-- What a write that is made does. -/
theorem write_eq {w : Write K R} (h : c.write a w = some c') :
    ∃ src', w.apply a.srcUnique c.source = some src' ∧ (∀ k ∈ w.touches, c.locked k = false) ∧
      c' = { c with
        source := src', shadow := w.mirror a c.puts c.installed c.shadow, puts := c.puts + 1 } := by
  unfold Copy.write at h
  split at h
  · cases h
  · rename_i hfree
    obtain ⟨src', hw, heq⟩ := Option.map_eq_some_iff.mp h
    refine ⟨src', hw, fun k hk => ?_, heq.symm⟩
    by_contra hlocked
    exact hfree (List.any_eq_true.mpr ⟨k, hk, by simpa using hlocked⟩)

/-- The next row of a chunk is in its range, and comes first there. -/
theorem nextRow_eq_some {pos : Option K} {hi : K} (h : c.nextRow pos hi = some (k, r)) :
    (k, r) ∈ c.source ∧ above pos k = true ∧ k ≤ hi ∧
      ∀ k' r', (k', r') ∈ c.source → inRange (pos, some hi) k' = true → k ≤ k' := by
  have hmem : (k, r) ∈ c.source := List.mem_of_find?_eq_some h
  have hrange : inRange (pos, some hi) k = true :=
    @List.find?_some _ (fun x : K × R => inRange (pos, some hi) x.1) _ _ h
  obtain ⟨habove, hupto⟩ := inRange_iff.mp hrange
  exact ⟨hmem, habove, upto_some.mp hupto, fun k' r' hr' hk' => Keyed.le_of_head h hr' hk'⟩

/-! ### Each move -/

/-- A position inside a chunk is not before its start. -/
theorem above_of_above {lo : Option K} (hk : above lo k = true) (hk' : above (some k) k' = true) :
    above lo k' = true := by
  have hlt : k < k' := by simpa [above] using hk'
  cases lo with
  | none => rfl
  | some b =>
    have hb : b < k := by simpa [above] using hk
    simpa [above] using hb.trans hlt

/-- Every step keeps the shape of the copy. -/
theorem shape_step {m : Move K R} (h : Shape c) (hm : c.step a m = some c') : Shape c' := by
  cases m with
  | write w =>
    obtain ⟨src', _, _, rfl⟩ := write_eq hm
    -- A writer changes neither the phase nor what the runner keeps.
    exact h
  | createTrigger =>
    simp only [Copy.step] at hm
    split at hm
    · rename_i e todo hp
      simp only [Shape, hp] at h
      -- The triggers that are there and those that are not yet are the three, in this order.
      have hinst : c.installed ++ [e] ++ todo = triggerSql := by simpa using h.1
      cases hm
      cases todo with
      | nil => exact ⟨by simpa using hinst, h.2⟩
      | cons e' todo => exact ⟨hinst, h.2⟩
    · cases hm
  -- With the maximum in hand there is no boundary yet.
  | readMax =>
    simp only [Copy.step] at hm
    split at hm
    · rename_i hp
      simp only [Shape, hp] at h
      split at hm
      · cases hm
        exact h.1
      · cases hm
        exact ⟨h.1, by simp [h.2]⟩
    · cases hm
  | readBoundary size =>
    simp only [Copy.step] at hm
    split at hm
    · rename_i max lo hp
      simp only [Shape, hp] at h
      split at hm
      · cases hm
        exact ⟨h.1, h.2, le_refl _, fun _ => rfl, fun _ hk => hk⟩
      -- A boundary that was read is a key of the range, so it is at most the maximum.
      · rename_i hi hb
        cases hm
        obtain ⟨x, hx, rfl⟩ := Option.map_eq_some_iff.mp hb
        obtain ⟨_, hrange⟩ := Keyed.mem_keep.mp (List.mem_of_getElem? hx)
        have hle : x.1 ≤ max := upto_some.mp (inRange_iff.mp hrange).2
        exact ⟨h.1, h.2, hle, by simp, fun _ hk => hk⟩
    · cases hm
  | copyRow =>
    simp only [Copy.step] at hm
    split at hm
    · rename_i max lo hi last pos written hp
      obtain ⟨⟨k, r⟩, hnext, rfl⟩ := Option.map_eq_some_iff.mp hm
      obtain ⟨_, habove, _, _⟩ := nextRow_eq_some hnext
      -- The row that was copied is the next one, so the position stays at the keys before it.
      simp only [Shape, hp] at h
      obtain ⟨hinst, hlast, hmax, hend, hpos⟩ := h
      exact ⟨hinst, hlast, hmax, hend, fun k' hk' => above_of_above (hpos k habove) hk'⟩
    · cases hm
  | endChunk =>
    simp only [Copy.step] at hm
    split at hm
    · rename_i max lo hi last pos written hp
      simp only [Shape, hp] at h
      split at hm
      · cases hm
      · cases hm
        -- After the last chunk the boundaries end with the maximum.
        cases last with
        | true => exact h.1
        | false => exact ⟨h.1, by simp⟩
    · cases hm
  | undoChunk =>
    simp only [Copy.step] at hm
    split at hm
    · rename_i max lo hi last pos written hp
      simp only [Shape, hp] at h
      -- The chunk is made again from its start.
      obtain ⟨hinst, hlast, hmax, hend, _⟩ := h
      cases hm
      exact ⟨hinst, hlast, hmax, hend, fun _ hk => hk⟩
    · cases hm
  | compare =>
    simp only [Copy.step] at hm
    split at hm
    · rename_i hp
      simp only [Shape, hp] at h
      cases hm
      show Shape { c with phase := if _ then _ else _ }
      -- Both ways, to the swap and to the abort, keep what the checksums have shown.
      split <;> exact h
    · cases hm
  -- The checksums and the swap ask for nothing new.
  | sumSource | sumShadow | undoRange | rename =>
    simp only [Copy.step] at hm
    split at hm
    · rename_i hp
      simp only [Shape, hp] at h
      cases hm
      exact h
    · cases hm

end

end DbGuard.Osc
