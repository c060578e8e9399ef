import DbGuard.Proofs.GtidGrammar

/-!
# `DbGuard.Proofs.GtidSpelling`: intervals with the key as it is written

`GtidSet.parse` brings every uuid and tag into one form. Other readers of GTID sets in the
repository keep them as they are written, so that one uuid may stand for several keys. A
`Mention` is an interval of a text with both: the key as the text spells it and the key that
`GtidSet.parse` makes of it.

`mentions` lists those of a text. How a tag is spelled is a parameter, `spell`, since some
readers put tags into lower case and others do not. `mem_iff_mentioned` says that the set of a
text is what its mentions name, and `key_eq_of_spelled` that a spelling stands for one key where
no number is written with white space in front of it.
-/

set_option autoImplicit false

namespace DbGuard

namespace GtidSet

/-- `uuid` or `uuid:tag`, as they are written. -/
def spelledKey (sid tag : List Char) : List Char := if tag = [] then sid else sid ++ ':' :: tag

/-- An interval of a text. `flush` is false where white space stands in front of it. -/
structure Mention where
  spelled : List Char
  key : Key
  iv : Int × Int
  flush : Bool

/-- The mention names the transaction. -/
def Mention.Names (m : Mention) (g : Gtid) : Prop :=
  m.key = g.1 ∧ m.iv.1 ≤ g.2 ∧ g.2 ≤ m.iv.2

instance (m : Mention) (g : Gtid) : Decidable (m.Names g) :=
  inferInstanceAs (Decidable (_ ∧ _ ∧ _))

/-- A field that starts with a digit as it is written. -/
def startsFlush (f : List Char) : Bool := f.head?.any Py.isDigit

/-- The mentions of the fields of a part, after a tag and its spelling. A number that has white
space in front of it is spelled like a tag. -/
def mentionsFrom (spell : List Char → List Char) (head uuid : List Char) :
    List Char → List Char → List (List Char) → List Mention
  | _, _, [] => []
  | spelled, tag, f :: fields =>
    match fieldOf (Py.dropSpaces f) with
    | some (.interval iv) =>
      ⟨spelledKey (Py.lower head) spelled, (.ofList uuid, .ofList tag), iv, startsFlush f⟩ ::
        mentionsFrom spell head uuid (if startsFlush f then spelled else spell f) tag fields
    | some (.tag t) => mentionsFrom spell head uuid (spell f) t fields
    | none => mentionsFrom spell head uuid spelled tag fields

/-- The mentions of a part. -/
def partMentions (spell : List Char → List Char) (raw : List Char) : List Mention :=
  match raw.splitOn ':' with
  | [] => []
  | head :: fields =>
    match normUuid (Py.dropSpaces head) with
    | .ok uuid => mentionsFrom spell head uuid [] [] fields
    | .error _ => []

/-- The mentions of the parts of a text. -/
def mentions (spell : List Char → List Char) (raws : List (List Char)) : List Mention :=
  raws.flatMap (partMentions spell)

/-! ### The set of a text -/

/-- A field that is read as an interval starts with a digit. -/
theorem interval_of_fieldOf {f : List Char} {iv : Int × Int}
    (h : fieldOf f = some (.interval iv)) :
    startsFlush f = true ∧ ∃ hle, readInterval f = .ok ⟨iv, hle⟩ := by
  cases f with
  | nil => cases h
  | cons c rest =>
      simp only [fieldOf] at h
      split at h
      · rename_i hc
        obtain ⟨iv', hiv, heq⟩ := Option.map_eq_some_iff.mp h
        cases heq
        exact ⟨hc, iv'.2, eq_ok_of_toOption hiv⟩
      · obtain ⟨t, -, heq⟩ := Option.map_eq_some_iff.mp h
        cases heq

/-- A field that is read as a tag does not. -/
theorem tag_of_fieldOf {f t : List Char} (h : fieldOf f = some (.tag t)) :
    startsFlush f = false ∧ readTag f = .ok t := by
  cases f with
  | nil => cases h
  | cons c rest =>
      simp only [fieldOf] at h
      split at h
      · obtain ⟨iv, -, heq⟩ := Option.map_eq_some_iff.mp h
        cases heq
      · rename_i hc
        obtain ⟨t', ht, heq⟩ := Option.map_eq_some_iff.mp h
        cases heq
        exact ⟨Bool.eq_false_iff.mpr hc, eq_ok_of_toOption ht⟩

/-- The mentions of fields are the intervals that they name. -/
theorem map_mentionsFrom (spell : List Char → List Char) (head uuid : List Char) :
    ∀ (fields : List (List Char)) (fs : List Field) (spelled tag : List Char),
      List.Forall₂ (fun f fd => fieldOf (Py.dropSpaces f) = some fd) fields fs →
        (mentionsFrom spell head uuid spelled tag fields).map (fun m => (m.key, m.iv)) =
          (walk tag fs).map fun ti => ((.ofList uuid, .ofList ti.1), ti.2) := by
  intro fields fs spelled tag h
  induction h generalizing spelled tag with
  | nil => rfl
  | @cons f fd fields fs hf _ ih =>
      rw [mentionsFrom, hf]
      cases fd with
      | interval iv =>
          rw [walk, List.map_cons, List.map_cons, ih]
      | tag t =>
          rw [walk]
          exact ih _ _

/-- A part with white space is read like the part without it. -/
theorem partOf_raw {raw : List Char} {p : Part} (h : PartOf (Py.dropSpaces raw) p) :
    ∃ head fields, raw.splitOn ':' = head :: fields ∧
      normUuid (Py.dropSpaces head) = .ok p.1 ∧
      List.Forall₂ (fun f fd => fieldOf (Py.dropSpaces f) = some fd) fields p.2 := by
  obtain ⟨head', fields', hsplit', huuid, hfields⟩ := h.uuid
  have hcolon : (!Py.isSpace ':') = true := by decide
  have hcut := Py.splitOn_filter (p := fun c => !Py.isSpace c) hcolon raw
  obtain ⟨head, fields, hsplit⟩ := List.exists_cons_of_ne_nil (List.splitOn_ne_nil ':' raw)
  have hmap : head' :: fields' = Py.dropSpaces head :: fields.map Py.dropSpaces := by
    rw [← hsplit', ← List.map_cons, ← hsplit]
    exact hcut
  obtain ⟨rfl, rfl⟩ := List.cons.inj hmap
  exact ⟨head, fields, hsplit, huuid, (List.forall₂_map_left_iff).mp hfields⟩

/-- The mentions of a part name what the part names. -/
theorem namedBy_iff_mentioned (spell : List Char → List Char) {raw : List Char} {p : Part}
    (h : PartOf (Py.dropSpaces raw) p) (g : Gtid) :
    NamedBy p.1 [] p.2 g ↔ ∃ m ∈ partMentions spell raw, m.Names g := by
  -- A part is its head and its fields, as they are in the text before the spaces are dropped.
  obtain ⟨head, fields, hsplit, huuid, hfields⟩ := partOf_raw h
  have hmap := map_mentionsFrom spell head p.1 fields p.2 [] [] hfields
  have hpart : partMentions spell raw = mentionsFrom spell head p.1 [] [] fields := by
    rw [partMentions, hsplit]
    dsimp only
    rw [huuid]
  rw [hpart]
  constructor
  -- A named transaction is in one of the intervals, and this interval has a mention.
  · rintro ⟨ti, hti, hkey, hmem⟩
    have hin : ((String.ofList p.1, String.ofList ti.1), ti.2) ∈
        (mentionsFrom spell head p.1 [] [] fields).map fun m => (m.key, m.iv) := by
      rw [hmap]
      exact List.mem_map.mpr ⟨ti, hti, rfl⟩
    obtain ⟨m, hm, heq⟩ := List.mem_map.mp hin
    obtain ⟨hk, hiv⟩ := Prod.mk.inj heq
    refine ⟨m, hm, hk.trans hkey, ?_⟩
    rw [hiv]
    exact hmem
  -- Backwards, a mention is of one of the walk's intervals.
  · rintro ⟨m, hm, hkey, hmem⟩
    have hin : (m.key, m.iv) ∈
        (walk [] p.2).map fun ti => ((String.ofList p.1, String.ofList ti.1), ti.2) := by
      rw [← hmap]
      exact List.mem_map.mpr ⟨m, hm, rfl⟩
    obtain ⟨ti, hti, heq⟩ := List.mem_map.mp hin
    obtain ⟨hk, hiv⟩ := Prod.mk.inj heq
    refine ⟨ti, hti, hk.trans hkey, ?_⟩
    rw [hiv]
    exact hmem

/-- The set of a text is what its mentions name. -/
theorem mem_iff_mentioned (spell : List Char → List Char) {text : String} {s : GtidSet}
    {raws : List (List Char)} (h : parse text = .ok s)
    (hraws : raws.map Py.dropSpaces = parts text) (g : Gtid) :
    g ∈ s ↔ ∃ m ∈ mentions spell raws, m.Names g := by
  obtain ⟨ps, hps, hmem⟩ := parts_of_parse h
  rw [hmem, ← hraws, List.forall₂_map_left_iff] at *
  clear hraws hmem h
  induction hps with
  | nil => simp [Named, mentions]
  | @cons raw p raws ps hp _ ih =>
      have hcons : mentions spell (raw :: raws) = partMentions spell raw ++ mentions spell raws :=
        List.flatMap_cons ..
      have hnamed : Named (p :: ps) g ↔ NamedBy p.1 [] p.2 g ∨ Named ps g := by
        simp only [Named, List.mem_cons, exists_eq_or_imp]
      rw [hcons, hnamed, ih, namedBy_iff_mentioned spell hp]
      simp only [List.mem_append, or_and_right, exists_or]

/-- Intervals of a text are in range. -/
theorem inRange_mentionsFrom {spell : List Char → List Char} {head uuid : List Char} :
    ∀ (fields : List (List Char)) (spelled tag : List Char),
      ∀ m ∈ mentionsFrom spell head uuid spelled tag fields,
        1 ≤ m.iv.1 ∧ m.iv.1 ≤ m.iv.2 ∧ m.iv.2 ≤ maxGno := by
  intro fields
  induction fields with
  | nil =>
      intro spelled tag m hm
      cases hm
  | cons f fields ih =>
      intro spelled tag m hm
      rw [mentionsFrom] at hm
      cases hf : fieldOf (Py.dropSpaces f) with
      | none =>
          rw [hf] at hm
          exact ih _ _ m hm
      | some fd =>
          rw [hf] at hm
          cases fd with
          | interval iv =>
              rcases List.mem_cons.mp hm with rfl | hm
              · obtain ⟨-, hle, hread⟩ := interval_of_fieldOf hf
                obtain ⟨-, -, hlo, hhi⟩ := (readInterval_ok_iff _ _).mp hread
                exact ⟨hlo, hle, hhi⟩
              · exact ih _ _ m hm
          | tag t => exact ih _ _ m hm

/-- A mention's interval is in range. -/
theorem inRange_mentions {spell : List Char → List Char} {raws : List (List Char)} {m : Mention}
    (h : m ∈ mentions spell raws) : 1 ≤ m.iv.1 ∧ m.iv.1 ≤ m.iv.2 ∧ m.iv.2 ≤ maxGno := by
  obtain ⟨raw, -, hm⟩ := List.mem_flatMap.mp h
  unfold partMentions at hm
  split at hm
  · cases hm
  · split at hm
    · exact inRange_mentionsFrom _ _ _ m hm
    · cases hm

/-! ### What a spelling stands for -/

/-- What a way to spell tags has to tell apart. -/
structure Spells (spell : List Char → List Char) : Prop where
  tells : ∀ f f', spell f = spell f' → Py.lower (Py.dropSpaces f) = Py.lower (Py.dropSpaces f')
  nonempty : ∀ f, spell f = [] → f = []

/-- The spelling as it stands is one. -/
theorem spells_id : Spells id where
  tells f f' h := by
    have heq : f = f' := h
    rw [heq]
  nonempty _ h := h

/-- So is that in lower case. -/
theorem spells_lower : Spells Py.lower where
  tells f f' h := by rw [← Py.dropSpaces_lower, ← Py.dropSpaces_lower, h]
  nonempty f h := by
    cases f with
    | nil => rfl
    | cons c f =>
        have hnil : Py.lowerChar c = [] := (List.append_eq_nil_iff.mp h).1
        unfold Py.lowerChar at hnil
        split at hnil
        · cases hnil
        · split at hnil
          · cases hnil
          · cases hnil

/-- A tag and its spelling, among the fields of a part. -/
def TagSpelled (spell : List Char → List Char) (fields : List (List Char))
    (spelled tag : List Char) : Prop :=
  (spelled = [] ∧ tag = []) ∨
    ∃ f ∈ fields, spelled = spell f ∧ fieldOf (Py.dropSpaces f) = some (.tag tag)

/-- A spelling of a tag is that of one tag only. -/
theorem tag_eq_of_spelled {spell : List Char → List Char} (hs : Spells spell)
    {fields fields' : List (List Char)} {spelled tag tag' : List Char}
    (h : TagSpelled spell fields spelled tag) (h' : TagSpelled spell fields' spelled tag') :
    tag = tag' := by
  have hnil : ∀ {f t : List Char}, [] = spell f → fieldOf (Py.dropSpaces f) ≠ some (.tag t) := by
    intro f t hf ht
    obtain rfl := hs.nonempty f hf.symm
    cases ht
  have hread : ∀ {f t : List Char}, fieldOf f = some (.tag t) → t = Py.lower f := by
    intro f t ht
    have hr := (tag_of_fieldOf ht).2
    unfold readTag at hr
    split at hr
    · exact (Except.ok.inj hr).symm
    · cases hr
  rcases h with ⟨rfl, rfl⟩ | ⟨f, -, hf, ht⟩
  · rcases h' with ⟨-, rfl⟩ | ⟨f', -, hf', ht'⟩
    · rfl
    · exact absurd ht' (hnil hf')
  · rcases h' with ⟨rfl, -⟩ | ⟨f', -, hf', ht'⟩
    · exact absurd ht (hnil hf)
    · rw [hread ht, hread ht', hs.tells f f' (hf.symm.trans hf')]

/-- The uuid of a part depends on how its head is written in lower case. -/
theorem uuid_eq_of_lower {head head' u u' : List Char} (hlow : Py.lower head = Py.lower head')
    (h : normUuid (Py.dropSpaces head) = .ok u) (h' : normUuid (Py.dropSpaces head') = .ok u') :
    u = u' := by
  have hread : ∀ {f t : List Char}, normUuid (Py.dropSpaces f) = .ok t →
      t = if '-' ∉ Py.lower (Py.dropSpaces f) then dashed (Py.lower (Py.dropSpaces f))
        else Py.lower (Py.dropSpaces f) := by
    intro f t ht
    have hsolid : Py.strip (Py.dropSpaces f) = Py.dropSpaces f :=
      Py.strip_of_forall fun c => Py.not_isSpace_of_mem_dropSpaces
    unfold normUuid at ht
    rw [hsolid] at ht
    dsimp only at ht
    split at ht
    · cases ht
    · exact (Except.ok.inj ht).symm
  have heq : Py.lower (Py.dropSpaces head) = Py.lower (Py.dropSpaces head') := by
    rw [← Py.dropSpaces_lower, ← Py.dropSpaces_lower, hlow]
  rw [hread h, hread h', heq]

/-- Keys without a colon in their uuid are told apart by their text. -/
theorem spelledKey_inj {sid sid' tag tag' : List Char} (hs : ':' ∉ sid) (hs' : ':' ∉ sid')
    (h : spelledKey sid tag = spelledKey sid' tag') : sid = sid' ∧ tag = tag' := by
  have htake : ∀ {sid : List Char}, ':' ∉ sid → ∀ tag,
      (spelledKey sid tag).takeWhile (· ≠ ':') = sid := by
    intro sid hsid tag
    have hall : ∀ c ∈ sid, decide (c ≠ ':') = true := by
      intro c hc
      have hne : c ≠ ':' := fun heq => hsid (heq ▸ hc)
      simpa using hne
    unfold spelledKey
    split
    · exact List.takeWhile_eq_self_iff.mpr hall
    · rw [List.takeWhile_append_of_pos hall, List.takeWhile_cons_of_neg (by decide),
        List.append_nil]
  have hsid : sid = sid' := by rw [← htake hs tag, ← htake hs' tag', h]
  subst hsid
  refine ⟨rfl, ?_⟩
  unfold spelledKey at h
  split at h
  · rename_i ht
    split at h
    · rename_i ht'
      rw [ht, ht']
    · simp at h
  · split at h
    · simp at h
    · exact (List.cons.inj (List.append_cancel_left h)).2

/-- Where a mention comes from: the head of its part, and its tag as it is written. -/
structure Mention.From (spell : List Char → List Char) (m : Mention) (head : List Char)
    (fields : List (List Char)) (uuid spelled tag : List Char) : Prop where
  head_ok : normUuid (Py.dropSpaces head) = .ok uuid
  tag_ok : TagSpelled spell fields spelled tag
  spells : m.spelled = spelledKey (Py.lower head) spelled
  key : m.key = (.ofList uuid, .ofList tag)

/-- A mention comes from an interval of the text and from the tag before it. -/
theorem from_of_mentionsFrom {spell : List Char → List Char} {head uuid : List Char}
    {all : List (List Char)} (hu : normUuid (Py.dropSpaces head) = .ok uuid) :
    ∀ (fields : List (List Char)) (spelled tag : List Char), (∀ f ∈ fields, f ∈ all) →
      TagSpelled spell all spelled tag →
        (∀ m ∈ mentionsFrom spell head uuid spelled tag fields, m.flush = true) →
          ∀ m ∈ mentionsFrom spell head uuid spelled tag fields,
            ∃ spelled tag, m.From spell head all uuid spelled tag := by
  -- By induction on the fields, with the tag in force as the invariant.
  intro fields
  induction fields with
  | nil =>
      intro spelled tag _ _ _ m hm
      cases hm
  | cons f fields ih =>
      intro spelled tag hall htag hflush m hm
      have hrest : ∀ f ∈ fields, f ∈ all := fun f hf => hall f (List.mem_cons_of_mem _ hf)
      rw [mentionsFrom] at hflush hm
      cases hf : fieldOf (Py.dropSpaces f) with
      -- A field that is neither is passed over.
      | none =>
          rw [hf] at hflush hm
          exact ih _ _ hrest htag hflush m hm
      | some fd =>
          cases fd with
          -- An interval is mentioned under the tag in force, if it is flush.
          | interval iv =>
              rw [hf] at hflush hm
              have hfirst : startsFlush f = true := hflush _ List.mem_cons_self
              simp only [hfirst, if_true] at hflush hm
              rcases List.mem_cons.mp hm with rfl | hm
              · exact ⟨spelled, tag, hu, htag, rfl, rfl⟩
              · exact ih _ _ hrest htag (fun m hm => hflush m (List.mem_cons_of_mem _ hm)) m hm
          -- A tag is in force from here on.
          | tag t =>
              rw [hf] at hflush hm
              exact ih _ _ hrest (.inr ⟨f, hall f List.mem_cons_self, rfl, hf⟩) hflush m hm

/-- Every mention comes from a part, if no number has white space in front of it. -/
theorem from_of_mentions {spell : List Char → List Char} {raws : List (List Char)}
    (h : ∀ m ∈ mentions spell raws, m.flush = true) {m : Mention} (hm : m ∈ mentions spell raws) :
    ∃ raw ∈ raws, ∃ head fields uuid spelled tag, raw.splitOn ':' = head :: fields ∧
      m.From spell head fields uuid spelled tag := by
  obtain ⟨raw, hraw, hpart⟩ := List.mem_flatMap.mp hm
  have hall : ∀ m ∈ partMentions spell raw, m.flush = true := fun m hm =>
    h m (List.mem_flatMap.mpr ⟨raw, hraw, hm⟩)
  unfold partMentions at hall hpart
  cases hsplit : raw.splitOn ':' with
  | nil => exact absurd hsplit (List.splitOn_ne_nil _ _)
  | cons head fields =>
      rw [hsplit] at hall hpart
      dsimp only at hall hpart
      cases hu : normUuid (Py.dropSpaces head) with
      | error e =>
          rw [hu] at hpart
          cases hpart
      | ok uuid =>
          rw [hu] at hall hpart
          obtain ⟨spelled, tag, hfrom⟩ := from_of_mentionsFrom hu fields [] []
            (fun f hf => hf) (.inl ⟨rfl, rfl⟩) hall m hpart
          exact ⟨raw, hraw, head, fields, uuid, spelled, tag, hsplit, hfrom⟩

/-- The head of a part has no colon, in lower case too. -/
theorem colon_not_mem_head {raw head : List Char} {fields : List (List Char)}
    (h : raw.splitOn ':' = head :: fields) : ':' ∉ Py.lower head := by
  have hhead : ':' ∉ head :=
    Py.not_mem_of_splitOn (by rw [h]; exact List.mem_cons_self)
  exact fun hc => hhead (Py.colon_of_lower hc)

/-- Where no number has white space in front of it, a spelling stands for one key. -/
theorem key_eq_of_spelled {spell : List Char → List Char} (hs : Spells spell)
    {raws raws' : List (List Char)} (h : ∀ m ∈ mentions spell raws, m.flush = true)
    (h' : ∀ m ∈ mentions spell raws', m.flush = true) {m m' : Mention}
    (hm : m ∈ mentions spell raws) (hm' : m' ∈ mentions spell raws')
    (heq : m.spelled = m'.spelled) : m.key = m'.key := by
  obtain ⟨raw, -, head, fields, uuid, spelled, tag, hsplit, hfrom⟩ := from_of_mentions h hm
  obtain ⟨raw', -, head', fields', uuid', spelled', tag', hsplit', hfrom'⟩ :=
    from_of_mentions h' hm'
  rw [hfrom.spells, hfrom'.spells] at heq
  obtain ⟨hlow, rfl⟩ :=
    spelledKey_inj (colon_not_mem_head hsplit) (colon_not_mem_head hsplit') heq
  rw [hfrom.key, hfrom'.key, uuid_eq_of_lower hlow hfrom.head_ok hfrom'.head_ok,
    tag_eq_of_spelled hs hfrom.tag_ok hfrom'.tag_ok]

end GtidSet

end DbGuard
