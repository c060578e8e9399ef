import DbGuard.GtidParse

/-!
# `DbGuard.Proofs.GtidReading`: what `GtidSet.parse` accepts and what it makes of it

The parser fills one dict in two nested loops. Here a text is read in two steps instead: each
part on its own gives a uuid and a list of fields (`partOf`), and the parts together give the
transactions that they name (`Named`). `parse_ok_iff` says that the parser accepts a text if
and only if each of its parts can be read, and `parts_of_parse` that the set is then the set
of transactions named. All that is proved about texts rests on these two.
-/

set_option autoImplicit false

namespace DbGuard

namespace GtidSet

/-! ### The abstract reading -/

/-- What a field says: an interval, or the tag of the intervals after it. -/
inductive Field
  | interval (iv : Int × Int)
  | tag (t : List Char)
deriving DecidableEq

/-- `isinstance(field, interval)`. -/
def Field.isInterval : Field → Bool
  | .interval _ => true
  | .tag _ => false

/-- A field on its own. -/
def fieldOf (f : List Char) : Option Field :=
  match f with
  | [] => none
  | c :: _ =>
    if Py.isDigit c then (readInterval f).toOption.map fun iv => .interval iv.1
    else (readTag f).toOption.map .tag

/-- A part: its uuid and its fields. -/
abbrev Part := List Char × List Field

/-- A part on its own: its uuid and its fields can be read, and one of them is an interval. -/
structure PartOf (part : List Char) (p : Part) : Prop where
  uuid : ∃ head fields, part.splitOn ':' = head :: fields ∧ normUuid head = .ok p.1 ∧
    List.Forall₂ (fun f fd => fieldOf f = some fd) fields p.2
  interval : p.2.any Field.isInterval = true

/-- The intervals of some fields with their tags, after the tag `tag`. -/
def walk : List Char → List Field → List (List Char × (Int × Int))
  | _, [] => []
  | tag, .interval iv :: fs => (tag, iv) :: walk tag fs
  | _, .tag t :: fs => walk t fs

/-- The fields of a part with uuid `u`, after the tag `tag`, name the transaction. -/
def NamedBy (u tag : List Char) (fs : List Field) (g : Gtid) : Prop :=
  ∃ ti ∈ walk tag fs, (String.ofList u, String.ofList ti.1) = g.1 ∧
    ti.2.1 ≤ g.2 ∧ g.2 ≤ ti.2.2

/-- The parts name the transaction. -/
def Named (ps : List Part) (g : Gtid) : Prop := ∃ p ∈ ps, NamedBy p.1 [] p.2 g

/-- The parts of a text: cut at the commas, without white space, and not empty. -/
def parts (text : String) : List (List Char) :=
  ((Py.dropSpaces text.toList).splitOn ',').filter fun part => part ≠ []

/-- A result that is there is no error. -/
theorem eq_ok_of_toOption {ε α : Type} {e : Except ε α} {a : α} (h : e.toOption = some a) :
    e = .ok a := by
  cases e with
  | error e => cases h
  | ok a' =>
      cases h
      rfl

/-! ### The loops -/

/-- A transaction of the dict. -/
def Pieces.Has (acc : Pieces) (g : Gtid) : Prop :=
  ∃ kv ∈ acc.entries, kv.1 = g.1 ∧ Interval.Mem g.2 kv.2

/-- No piece, no transaction. -/
theorem Pieces.has_empty (g : Gtid) : ¬ Pieces.Has {} g := by
  rintro ⟨kv, hkv, -⟩
  exact absurd hkv List.not_mem_nil

/-- One append adds the transactions of its interval. -/
theorem Pieces.has_append (acc : Pieces) (key : Key) (iv : { iv : Int × Int // iv.1 ≤ iv.2 })
    (g : Gtid) : (acc.append key iv).Has g ↔
      acc.Has g ∨ (key = g.1 ∧ iv.1.1 ≤ g.2 ∧ g.2 ≤ iv.1.2) := by
  show (∃ kv ∈ appendTo acc.entries key iv.1, kv.1 = g.1 ∧ Interval.Mem g.2 kv.2) ↔ _
  constructor
  · rintro ⟨kv, hkv, hkey, hmem⟩
    rcases mem_appendTo hkv with h | rfl | ⟨ivs, h, rfl⟩
    · exact .inl ⟨kv, h, hkey, hmem⟩
    · exact .inr ⟨hkey, by simpa using hmem⟩
    · rcases (Interval.mem_append _ _ _).mp hmem with hmem | hmem
      · exact .inl ⟨_, h, hkey, hmem⟩
      · exact .inr ⟨hkey, by simpa using hmem⟩
  · unfold appendTo
    split
    · rename_i hin
      rintro (⟨kv, hkv, hkey, hmem⟩ | ⟨hkey, hmem⟩)
      · refine ⟨_, List.mem_map.mpr ⟨kv, hkv, rfl⟩, ?_⟩
        split
        · rename_i hk
          exact ⟨hk.symm.trans hkey, (Interval.mem_append _ _ _).mpr (.inl hmem)⟩
        · exact ⟨hkey, hmem⟩
      · obtain ⟨kv, hkv, hk⟩ := List.mem_map.mp hin
        refine ⟨_, List.mem_map.mpr ⟨kv, hkv, rfl⟩, ?_⟩
        rw [if_pos hk]
        exact ⟨hkey, (Interval.mem_append _ _ _).mpr (.inr (by simpa using hmem))⟩
    · rintro (⟨kv, hkv, h⟩ | ⟨hkey, hmem⟩)
      · exact ⟨kv, List.mem_append_left _ hkv, h⟩
      · exact ⟨_, List.mem_append_right _ (List.mem_singleton.mpr rfl), hkey, by simpa using hmem⟩

/-- The loop over the fields of a part does what the abstract reading says. -/
theorem foldlM_readField (part uuid : List Char) :
    ∀ (fields : List (List Char)) (fs : List Field) (st : FieldState),
      List.Forall₂ (fun f fd => fieldOf f = some fd) fields fs →
        ∃ st', fields.foldlM (readField part uuid) st = .ok st' ∧
          st'.sawInterval = (st.sawInterval || fs.any Field.isInterval) ∧
          ∀ g, st'.acc.Has g ↔ st.acc.Has g ∨ NamedBy uuid st.tag fs g := by
  intro fields fs st h
  -- Field by field, with the tag before it and what was read so far.
  induction h generalizing st with
  | nil =>
      refine ⟨st, rfl, by simp, fun g => ?_⟩
      have hnone : ¬ NamedBy uuid st.tag [] g := by
        rintro ⟨ti, hti, -⟩
        exact absurd hti List.not_mem_nil
      exact ⟨.inl, fun h => h.resolve_right hnone⟩
  | @cons f fd fields fs hf _ ih =>
      rw [List.foldlM_cons]
      cases f with
      | nil => cases hf
      | cons c f =>
          simp only [fieldOf] at hf
          simp only [readField]
          -- A digit begins an interval: it goes under the key of the last tag.
          split at hf
          · rename_i hdigit
            obtain ⟨iv, hiv, rfl⟩ := Option.map_eq_some_iff.mp hf
            have hread := eq_ok_of_toOption hiv
            rw [if_pos hdigit, hread]
            obtain ⟨st', hst', hsaw, hhas⟩ := ih
              { acc := st.acc.append (.ofList uuid, .ofList st.tag) iv
                tag := st.tag
                sawInterval := true }
            refine ⟨st', hst', ?_, fun g => ?_⟩
            · rw [hsaw]
              simp [Field.isInterval]
            · rw [hhas, Pieces.has_append, or_assoc]
              refine or_congr_right ?_
              unfold NamedBy
              simp only [walk, List.mem_cons, exists_eq_or_imp]
          -- Anything else is a tag, and the following intervals are under it.
          · rename_i hdigit
            obtain ⟨t, ht, rfl⟩ := Option.map_eq_some_iff.mp hf
            have hread := eq_ok_of_toOption ht
            rw [if_neg hdigit, hread]
            obtain ⟨st', hst', hsaw, hhas⟩ := ih { st with tag := t }
            refine ⟨st', hst', ?_, fun g => ?_⟩
            · rw [hsaw]
              simp [Field.isInterval]
            · rw [hhas]
              rfl

/-- A field that the loop accepts can be read on its own. -/
theorem fieldOf_of_readField {part uuid f : List Char} {st st' : FieldState}
    (h : readField part uuid st f = .ok st') : ∃ fd, fieldOf f = some fd := by
  cases f with
  | nil => cases h
  | cons c f =>
      simp only [readField] at h
      simp only [fieldOf]
      split at h
      · rename_i hdigit
        cases hr : readInterval (c :: f) with
        | error e =>
            rw [hr] at h
            cases h
        | ok iv => exact ⟨.interval iv.1, by rw [if_pos hdigit]; rfl⟩
      · rename_i hdigit
        cases hr : readTag (c :: f) with
        | error e =>
            rw [hr] at h
            cases h
        | ok t => exact ⟨.tag t, by rw [if_neg hdigit]; rfl⟩

/-- The fields that were read say what was read. -/
theorem forall₂_of_foldlM_readField (part uuid : List Char) :
    ∀ (fields : List (List Char)) (st st' : FieldState),
      fields.foldlM (readField part uuid) st = .ok st' →
        ∃ fs, List.Forall₂ (fun f fd => fieldOf f = some fd) fields fs := by
  intro fields
  induction fields with
  | nil =>
      intro st st' _
      exact ⟨[], .nil⟩
  | cons f fields ih =>
      intro st st' h
      rw [List.foldlM_cons] at h
      cases hf : readField part uuid st f with
      | error e =>
          rw [hf] at h
          cases h
      | ok st₁ =>
          rw [hf] at h
          obtain ⟨fs, hfs⟩ := ih st₁ st' h
          obtain ⟨fd, hfd⟩ := fieldOf_of_readField hf
          exact ⟨fd :: fs, .cons hfd hfs⟩

/-- A part that can be read on its own is accepted and adds what it names. -/
theorem readPart_of_partOf {acc : Pieces} {part : List Char} {p : Part}
    (hne : Py.dropSpaces part ≠ []) (h : PartOf (Py.dropSpaces part) p) :
    ∃ acc', readPart acc part = .ok acc' ∧
      ∀ g, acc'.Has g ↔ acc.Has g ∨ NamedBy p.1 [] p.2 g := by
  obtain ⟨head, fields, hsplit, huuid, hfields⟩ := h.uuid
  obtain ⟨st', hst', hsaw, hhas⟩ :=
    foldlM_readField (Py.dropSpaces part) p.1 fields p.2 { acc } hfields
  have hsaw' : st'.sawInterval = true := by
    rw [hsaw, h.interval]
    rfl
  refine ⟨st'.acc, ?_, hhas⟩
  simp only [readPart]
  rw [if_neg hne, hsplit]
  simp only [huuid]
  show (fields.foldlM (readField (Py.dropSpaces part) p.1) { acc } >>= fun st =>
    if st.sawInterval then Except.ok st.acc
    else Except.error (ParseError.noInterval (Py.dropSpaces part))) = _
  rw [hst']
  show (if st'.sawInterval then _ else _) = _
  rw [if_pos hsaw']

/-- A part that is accepted can be read on its own. -/
theorem partOf_of_readPart {acc acc' : Pieces} {part : List Char}
    (hne : Py.dropSpaces part ≠ []) (h : readPart acc part = .ok acc') :
    ∃ p, PartOf (Py.dropSpaces part) p := by
  simp only [readPart] at h
  rw [if_neg hne] at h
  obtain ⟨head, fields, hsplit⟩ :=
    List.exists_cons_of_ne_nil (List.splitOn_ne_nil ':' (Py.dropSpaces part))
  simp only [hsplit] at h
  -- The head is a uuid, then each field is read, and at last there has to be an interval.
  cases huuid : normUuid head with
  | error e =>
      rw [huuid] at h
      cases h
  | ok uuid =>
      rw [huuid] at h
      cases hloop : fields.foldlM (readField (Py.dropSpaces part) uuid) { acc } with
      | error e =>
          replace h : (fields.foldlM (readField (Py.dropSpaces part) uuid) { acc } >>= fun st =>
            if st.sawInterval then Except.ok st.acc
            else Except.error (ParseError.noInterval (Py.dropSpaces part))) = .ok acc' := h
          rw [hloop] at h
          cases h
      | ok st =>
          replace h : (fields.foldlM (readField (Py.dropSpaces part) uuid) { acc } >>= fun st =>
            if st.sawInterval then Except.ok st.acc
            else Except.error (ParseError.noInterval (Py.dropSpaces part))) = .ok acc' := h
          rw [hloop] at h
          replace h : (if st.sawInterval then Except.ok st.acc
            else Except.error (ParseError.noInterval (Py.dropSpaces part))) = .ok acc' := h
          obtain ⟨fs, hfs⟩ := forall₂_of_foldlM_readField _ _ _ _ _ hloop
          obtain ⟨st', hst', hsaw, -⟩ := foldlM_readField _ _ _ _ { acc } hfs
          rw [hloop] at hst'
          cases hst'
          refine ⟨(uuid, fs), ⟨head, fields, hsplit, huuid, hfs⟩, ?_⟩
          split at h
          · rename_i hsaw'
            rw [hsaw] at hsaw'
            simpa using hsaw'
          · cases h

/-! ### The whole text -/

/-- The raw parts of a text, without white space and without the empty ones. -/
theorem parts_eq (text : String) :
    parts text = (((Py.strip text.toList).splitOn ',').map Py.dropSpaces).filter
      fun part => part ≠ [] := by
  have hcomma : (!Py.isSpace ',') = true := by decide
  have hcut := Py.splitOn_filter (p := fun c => !Py.isSpace c) hcomma (Py.strip text.toList)
  rw [parts, ← Py.dropSpaces_strip]
  exact congrArg _ hcut

/-- The loop over the parts. -/
theorem foldlM_readPart :
    ∀ (raw : List (List Char)) (ps : List Part) (acc : Pieces),
      List.Forall₂ PartOf ((raw.map Py.dropSpaces).filter fun part => part ≠ []) ps →
        ∃ acc', raw.foldlM readPart acc = .ok acc' ∧
          ∀ g, acc'.Has g ↔ acc.Has g ∨ Named ps g := by
  intro raw
  induction raw with
  -- Part by part; the sets of the parts are put together.
  | nil =>
      intro ps acc h
      cases h
      exact ⟨acc, rfl, fun g => by simp [Named]⟩
  | cons part raw ih =>
      intro ps acc h
      rw [List.map_cons] at h
      rw [List.foldlM_cons]
      -- An empty part is skipped.
      by_cases hne : Py.dropSpaces part = []
      · rw [List.filter_cons_of_neg (by simpa using hne)] at h
        have hskip : readPart acc part = .ok acc := by
          simp only [readPart]
          rw [if_pos hne]
        rw [hskip]
        exact ih ps acc h
      · rw [List.filter_cons_of_pos (by simpa using hne)] at h
        cases h with
        | @cons _ p _ ps hp hps =>
            obtain ⟨acc₁, hacc₁, hhas₁⟩ : ∃ acc₁, readPart acc part = .ok acc₁ ∧
                ∀ g, acc₁.Has g ↔ acc.Has g ∨ NamedBy p.1 [] p.2 g := readPart_of_partOf hne hp
            obtain ⟨acc', hacc', hhas'⟩ := ih ps acc₁ hps
            rw [hacc₁]
            refine ⟨acc', hacc', fun g => ?_⟩
            rw [hhas', hhas₁, or_assoc]
            refine or_congr_right ?_
            unfold Named
            simp only [List.mem_cons, exists_eq_or_imp]

/-- The parts that were read say what was read. -/
theorem forall₂_of_foldlM_readPart :
    ∀ (raw : List (List Char)) (acc acc' : Pieces), raw.foldlM readPart acc = .ok acc' →
      ∃ ps, List.Forall₂ PartOf ((raw.map Py.dropSpaces).filter fun part => part ≠ []) ps := by
  intro raw
  induction raw with
  | nil =>
      intro acc acc' _
      exact ⟨[], .nil⟩
  | cons part raw ih =>
      intro acc acc' h
      rw [List.foldlM_cons] at h
      cases hpart : readPart acc part with
      | error e =>
          rw [hpart] at h
          cases h
      | ok acc₁ =>
          rw [hpart] at h
          obtain ⟨ps, hps⟩ := ih acc₁ acc' h
          rw [List.map_cons]
          by_cases hne : Py.dropSpaces part = []
          · rw [List.filter_cons_of_neg (by simpa using hne)]
            exact ⟨ps, hps⟩
          · rw [List.filter_cons_of_pos (by simpa using hne)]
            obtain ⟨p, hp⟩ := partOf_of_readPart hne hpart
            exact ⟨p :: ps, .cons hp hps⟩

/-- The set that is built has what the pieces have. -/
theorem mem_pieces_build (acc : Pieces) (g : Gtid) : g ∈ acc.build ↔ acc.Has g :=
  mem_build g

/-- A text each part of which can be read is accepted, and the set is what its parts name. -/
theorem parse_of_parts {text : String} {ps : List Part}
    (h : List.Forall₂ PartOf (parts text) ps) :
    ∃ s, parse text = .ok s ∧ ∀ g, g ∈ s ↔ Named ps g := by
  rw [parts_eq] at h
  unfold parse
  dsimp only
  by_cases hempty : Py.strip text.toList = []
  · rw [if_pos hempty]
    rw [hempty] at h
    cases h
    exact ⟨.empty, rfl, fun g => by simp [Named]⟩
  · rw [if_neg hempty]
    obtain ⟨acc, hacc, hhas⟩ := foldlM_readPart _ ps {} h
    rw [hacc]
    refine ⟨acc.build, rfl, fun g => ?_⟩
    rw [mem_pieces_build, hhas]
    exact ⟨fun h => h.resolve_left (Pieces.has_empty g), .inr⟩

/-- Each part of a text that is accepted can be read. -/
theorem parts_of_parse {text : String} {s : GtidSet} (h : parse text = .ok s) :
    ∃ ps, List.Forall₂ PartOf (parts text) ps ∧ ∀ g, g ∈ s ↔ Named ps g := by
  have hparts : ∃ ps, List.Forall₂ PartOf (parts text) ps := by
    rw [parts_eq]
    unfold parse at h
    dsimp only at h
    by_cases hempty : Py.strip text.toList = []
    · rw [hempty]
      exact ⟨[], .nil⟩
    · rw [if_neg hempty] at h
      cases hloop : ((Py.strip text.toList).splitOn ',').foldlM readPart {} with
      | error e =>
          rw [hloop] at h
          cases h
      | ok acc => exact forall₂_of_foldlM_readPart _ _ _ hloop
  obtain ⟨ps, hps⟩ := hparts
  obtain ⟨s', hs', hmem⟩ := parse_of_parts hps
  rw [h] at hs'
  cases hs'
  exact ⟨ps, hps, hmem⟩

/-- The parser accepts a text if and only if each of its parts can be read. -/
theorem parse_ok_iff (text : String) :
    (∃ s, parse text = .ok s) ↔ ∀ part ∈ parts text, ∃ p, PartOf part p := by
  constructor
  · rintro ⟨s, hs⟩ part hpart
    obtain ⟨ps, hps, -⟩ := parts_of_parse hs
    obtain ⟨i, hi, rfl⟩ := List.mem_iff_getElem.mp hpart
    exact ⟨_, hps.get hi (hps.length_eq ▸ hi)⟩
  · intro h
    have hps : ∀ l : List (List Char), (∀ part ∈ l, ∃ p, PartOf part p) →
        ∃ ps, List.Forall₂ PartOf l ps := by
      intro l
      induction l with
      | nil => exact fun _ => ⟨[], .nil⟩
      | cons part l ih =>
          intro hl
          obtain ⟨p, hp⟩ := hl part List.mem_cons_self
          obtain ⟨ps, hps⟩ := ih fun part' h' => hl part' (List.mem_cons_of_mem _ h')
          exact ⟨p :: ps, .cons hp hps⟩
    obtain ⟨ps, hps⟩ := hps _ h
    obtain ⟨s, hs, -⟩ := parse_of_parts hps
    exact ⟨s, hs⟩

end GtidSet

end DbGuard
