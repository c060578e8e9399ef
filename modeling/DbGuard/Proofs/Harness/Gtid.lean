import DbGuard.Harness.Gtid
import DbGuard.Proofs.GtidExact
import DbGuard.Proofs.GtidRoundTrip
import DbGuard.Proofs.GtidSpelling

/-!
# `DbGuard.Proofs.Harness.Gtid`: when the harness agrees with `GtidSet`

The harness reads every text that `GtidSet` accepts (`parseGtid_of_parse`), but under the keys as
the text spells them. So its functions compute on what a text `Writes`: a transaction together
with a spelling of its key. They are right about these (`gtidSubset_eq`, `gtidEqual_eq`,
`gtidCount_eq`, `gtidMinus_eq`), and `helpers_agree` says when that is the same as being right
about the sets.
-/

set_option autoImplicit false

namespace DbGuard

namespace Harness

open GtidSet (Mention)

/-! ### Reading a text -/

/-- The intervals of a text. A tag is spelled as it is written. -/
def mentions (text : String) : List Mention := GtidSet.mentions id (GtidSet.parts text)

/-- The parts of a text have no white space in front. -/
theorem map_parts (text : String) :
    (GtidSet.parts text).map Py.dropSpaces = GtidSet.parts text := by
  refine (List.map_congr_left fun part hpart => ?_).trans (List.map_id _)
  exact Py.dropSpaces_of_forall (GtidSet.not_isSpace_of_parts hpart)

/-- The text writes the number under this spelling of a key. -/
def WritesAt (text : String) (σ : List Char) (n : Int) : Prop :=
  ∃ m ∈ mentions text, m.spelled = σ ∧ m.iv.1 ≤ n ∧ n ≤ m.iv.2

/-- The intervals of mentions, with their keys. -/
def spelledPairs (ms : List Mention) : List (List Char × (Int × Int)) :=
  ms.map fun m => (m.spelled, m.iv)

/-- The pairs of two texts come one behind the other. -/
theorem spelledPairs_append (ms ms' : List Mention) :
    spelledPairs (ms ++ ms') = spelledPairs ms ++ spelledPairs ms' := List.map_append ..

/-- A field that `GtidSet` reads as an interval has the same bounds here. -/
theorem readBounds_eq {f : List Char} {iv : Int × Int} {hle : iv.1 ≤ iv.2}
    (h : GtidSet.readInterval f = .ok ⟨iv, hle⟩) : readBounds f = some iv := by
  obtain ⟨hlo, hhi, -⟩ := (GtidSet.readInterval_ok_iff _ _).mp h
  have hempty : Py.int [] = none := rfl
  unfold GtidSet.bounds at hlo hhi
  unfold readBounds
  by_cases hdash : '-' ∈ f
  · rw [if_pos hdash] at hlo hhi
    have hne : (f.dropWhile (· ≠ '-')).drop 1 ≠ [] := by
      intro hnil
      rw [hnil, hempty] at hhi
      cases hhi
    dsimp only at hlo hhi ⊢
    rw [hlo, if_neg hne, hhi]
    rfl
  · rw [if_neg hdash] at hlo hhi
    have hall : ∀ c ∈ f, decide (c ≠ '-') = true := by
      intro c hc
      have hne : c ≠ '-' := fun heq => hdash (heq ▸ hc)
      simpa using hne
    have htake : f.takeWhile (· ≠ '-') = f := List.takeWhile_eq_self_iff.mpr hall
    have hdrop : f.dropWhile (· ≠ '-') = [] := List.dropWhile_eq_nil_iff.mpr hall
    dsimp only at hlo hhi ⊢
    rw [htake, hdrop, List.drop_nil, if_pos rfl, hlo, Option.bind_some]
    have hsame : iv.1 = iv.2 := Option.some.inj (hlo.symm.trans hhi)
    exact congrArg some (Prod.ext rfl hsame)

/-- Without white space every number is flush. -/
theorem flush_of_mentionsFrom {spell : List Char → List Char} {head uuid : List Char} :
    ∀ (fields : List (List Char)) (spelled tag : List Char),
      (∀ f ∈ fields, Py.dropSpaces f = f) →
        ∀ m ∈ GtidSet.mentionsFrom spell head uuid spelled tag fields, m.flush = true := by
  intro fields
  induction fields with
  | nil =>
      intro spelled tag _ m hm
      cases hm
  | cons f fields ih =>
      intro spelled tag hsolid m hm
      have hrest : ∀ f ∈ fields, Py.dropSpaces f = f :=
        fun f hf => hsolid f (List.mem_cons_of_mem _ hf)
      rw [GtidSet.mentionsFrom] at hm
      cases hf : GtidSet.fieldOf (Py.dropSpaces f) with
      | none =>
          rw [hf] at hm
          exact ih _ _ hrest m hm
      | some fd =>
          rw [hf] at hm
          cases fd with
          | interval iv =>
              rcases List.mem_cons.mp hm with rfl | hm
              · have hstart := (GtidSet.interval_of_fieldOf hf).1
                rw [hsolid f List.mem_cons_self] at hstart
                exact hstart
              · exact ih _ _ hrest m hm
          | tag t => exact ih _ _ hrest m hm

/-- The fields of a part of a text have no white space. -/
theorem dropSpaces_of_field {text : String} {part f : List Char}
    (hpart : part ∈ GtidSet.parts text) (hf : f ∈ part.splitOn ':') : Py.dropSpaces f = f :=
  Py.dropSpaces_of_forall
    (GtidSet.not_isSpace_of_splitOn (GtidSet.not_isSpace_of_parts hpart) hf)

/-- Every mention of a text flushes. -/
theorem flush_of_mentions {text : String} : ∀ m ∈ mentions text, m.flush = true := by
  intro m hm
  obtain ⟨part, hpart, hm⟩ := List.mem_flatMap.mp hm
  unfold GtidSet.partMentions at hm
  cases hsplit : part.splitOn ':' with
  | nil => exact absurd hsplit (List.splitOn_ne_nil _ _)
  | cons head fields =>
      rw [hsplit] at hm
      dsimp only at hm
      split at hm
      · refine flush_of_mentionsFrom fields _ _ (fun f hf => ?_) m hm
        exact dropSpaces_of_field hpart (hsplit ▸ List.mem_cons_of_mem _ hf)
      · cases hm

/-- The loop over the fields of a part puts in its intervals. -/
theorem foldlM_readField (head uuid : List Char) :
    ∀ (fields : List (List Char)) (fs : List GtidSet.Field) (spelled tag : List Char)
      (out : Dict) (pairs : List (List Char × (Int × Int))),
      List.Forall₂ (fun f fd => GtidSet.fieldOf (Py.dropSpaces f) = some fd) fields fs →
        (∀ f ∈ fields, Py.dropSpaces f = f) →
          GtidSet.spelledKey (Py.lower head) spelled ∈ out.entries.map Prod.fst →
            out.pairs.Perm pairs →
              ∃ st, fields.foldlM (readField (Py.lower head))
                  (out, GtidSet.spelledKey (Py.lower head) spelled) = some st ∧
                st.1.pairs.Perm (spelledPairs
                  (GtidSet.mentionsFrom id head uuid spelled tag fields) ++ pairs) := by
  intro fields fs spelled tag out pairs h
  -- The induction goes over the fields, with the key of the last tag and what was read so far.
  induction h generalizing spelled tag out pairs with
  | nil => exact fun _ _ hout => ⟨_, rfl, hout⟩
  | @cons f fd fields fs hf _ ih =>
      intro hsolid hkey hout
      have hrest : ∀ f ∈ fields, Py.dropSpaces f = f :=
        fun f hf => hsolid f (List.mem_cons_of_mem _ hf)
      have hself := hsolid f List.mem_cons_self
      rw [List.foldlM_cons, GtidSet.mentionsFrom, hf]
      rw [hself] at hf
      cases fd with
      -- An interval goes under the key of the last tag.
      | interval iv =>
          obtain ⟨hstart, hle, hread⟩ := GtidSet.interval_of_fieldOf hf
          have hstep : readField (Py.lower head)
              (out, GtidSet.spelledKey (Py.lower head) spelled) f =
                some (out.append (GtidSet.spelledKey (Py.lower head) spelled) iv,
                  GtidSet.spelledKey (Py.lower head) spelled) := by
            have hdigit : f.head?.any Py.isDigit = true := hstart
            rw [readField, if_pos hdigit, readBounds_eq hread]
            rfl
          have hperm := (Grouped.perm_pairs_append (v := iv) hkey).trans (hout.cons _)
          obtain ⟨st, hst, hfill⟩ := ih spelled tag _ _ hrest
            (by rw [Grouped.keys_append]; exact hkey) hperm
          rw [hstep]
          simp only [hstart, if_true]
          exact ⟨st, hst, hfill.trans List.perm_middle⟩
      -- A tag opens a key, if there is none yet.
      | tag t =>
          have hstart := (GtidSet.tag_of_fieldOf hf).1
          have hne : f ≠ [] := by
            rintro rfl
            cases hf
          have hspell : GtidSet.spelledKey (Py.lower head) (id f) =
              Py.lower head ++ ':' :: f := if_neg hne
          have hstep : readField (Py.lower head)
              (out, GtidSet.spelledKey (Py.lower head) spelled) f =
                some (out.touch (Py.lower head ++ ':' :: f), Py.lower head ++ ':' :: f) :=
            if_neg (Bool.eq_false_iff.mp hstart)
          rw [hstep, ← hspell]
          exact ih (id f) t _ _ hrest Grouped.mem_keys_touch (by rw [Grouped.pairs_touch]; exact hout)

/-- One part puts in its intervals. -/
theorem readPart_of_partOf {part : List Char} {p : GtidSet.Part}
    (hp : GtidSet.PartOf (Py.dropSpaces part) p) (hne : part ≠ [])
    (hsolid : ∀ f ∈ part.splitOn ':', Py.dropSpaces f = f) {out : Dict}
    {pairs : List (List Char × (Int × Int))} (hout : out.pairs.Perm pairs) :
    ∃ out', readPart out part = some out' ∧
      out'.pairs.Perm (spelledPairs (GtidSet.partMentions id part) ++ pairs) := by
  obtain ⟨head, fields, hsplit, huuid, hfields⟩ := GtidSet.partOf_raw hp
  rw [hsplit] at hsolid
  have hspell : GtidSet.spelledKey (Py.lower head) [] = Py.lower head := if_pos rfl
  obtain ⟨st, hst, hfill⟩ := foldlM_readField head p.1 fields p.2 [] []
    (out.touch (Py.lower head)) pairs hfields
    (fun f hf => hsolid f (List.mem_cons_of_mem _ hf))
    (by rw [hspell]; exact Grouped.mem_keys_touch) (by rw [Grouped.pairs_touch]; exact hout)
  rw [hspell] at hst
  refine ⟨st.1, ?_, ?_⟩
  · rw [readPart, if_neg hne, hsplit]
    dsimp only
    rw [hst]
    rfl
  · rw [GtidSet.partMentions, hsplit]
    dsimp only
    rw [huuid]
    exact hfill

/-- The loop over the parts puts in the intervals of all parts. -/
theorem foldlM_readPart :
    ∀ (raws : List (List Char)) (out : Dict) (pairs : List (List Char × (Int × Int))),
      (∀ part ∈ raws.filter (· ≠ []), (∃ p, GtidSet.PartOf (Py.dropSpaces part) p) ∧
        ∀ f ∈ part.splitOn ':', Py.dropSpaces f = f) → out.pairs.Perm pairs →
          ∃ out', raws.foldlM readPart out = some out' ∧ out'.pairs.Perm
            (spelledPairs (GtidSet.mentions id (raws.filter (· ≠ []))) ++ pairs) := by
  intro raws
  induction raws with
  | nil => exact fun out pairs _ hout => ⟨out, rfl, hout⟩
  | cons part raws ih =>
      intro out pairs hparts hout
      rw [List.foldlM_cons]
      -- An empty part is skipped.
      by_cases hne : part = []
      · have hcons : (part :: raws).filter (· ≠ []) = raws.filter (· ≠ []) :=
          List.filter_cons_of_neg (by simpa using hne)
        have hskip : readPart out part = some out := if_pos hne
        rw [hcons] at hparts ⊢
        rw [hskip]
        exact ih out pairs hparts hout
      · have hcons : (part :: raws).filter (· ≠ []) = part :: raws.filter (· ≠ []) :=
          List.filter_cons_of_pos (by simpa using hne)
        -- A part is read field by field.
        rw [hcons] at hparts ⊢
        obtain ⟨⟨p, hp⟩, hsolid⟩ := hparts part List.mem_cons_self
        obtain ⟨out₁, hout₁, hfill₁⟩ := readPart_of_partOf hp hne hsolid hout
        obtain ⟨out', hout', hfill'⟩ := ih out₁ _
          (fun part' h' => hparts part' (List.mem_cons_of_mem _ h')) hfill₁
        rw [hout₁]
        refine ⟨out', hout', hfill'.trans ?_⟩
        have hmentions : GtidSet.mentions id (part :: raws.filter (· ≠ [])) =
            GtidSet.partMentions id part ++ GtidSet.mentions id (raws.filter (· ≠ [])) :=
          List.flatMap_cons ..
        rw [hmentions, spelledPairs_append, ← List.append_assoc]
        exact List.perm_append_comm.append_right pairs

/-- What a dict from `parse_gtid` holds. -/
structure Holds (p : Dict) (text : String) : Prop where
  mem : ∀ σ n, Interval.Mem n (p.get σ) ↔ WritesAt text σ n
  nonempty : ∀ kv ∈ p.entries, kv.2 ≠ []
  normal : ∀ kv ∈ p.entries, Interval.Normal kv.2

/-- Membership under a key, entry by entry. -/
theorem mem_get_iff {p : Dict} {σ : List Char} {n : Int} :
    Interval.Mem n (p.get σ) ↔ ∃ kv ∈ p.entries, kv.1 = σ ∧ Interval.Mem n kv.2 := by
  constructor
  · intro h
    by_cases hk : σ ∈ p.entries.map Prod.fst
    · obtain ⟨kv, hkv, rfl⟩ := List.mem_map.mp hk
      rw [Grouped.get_of_mem hkv] at h
      exact ⟨kv, hkv, rfl, h⟩
    · rw [Grouped.get_of_not_mem hk] at h
      exact absurd h (Interval.not_mem_nil n)
  · rintro ⟨kv, hkv, rfl, h⟩
    rw [Grouped.get_of_mem hkv]
    exact h

/-- The intervals of a key are in normal form. -/
theorem Holds.normal_get {p : Dict} {text : String} (h : Holds p text) (σ : List Char) :
    Interval.Normal (p.get σ) := by
  by_cases hk : σ ∈ p.entries.map Prod.fst
  · obtain ⟨kv, hkv, rfl⟩ := List.mem_map.mp hk
    rw [Grouped.get_of_mem hkv]
    exact h.normal kv hkv
  · rw [Grouped.get_of_not_mem hk]
    exact Interval.normal_nil

/-- Every text that `GtidSet` accepts is read, spelling by spelling. -/
theorem parseGtid_of_parse {text : String} {s : GtidSet} (hs : GtidSet.parse text = .ok s) :
    ∃ p, parseGtid text = some p ∧ Holds p text := by
  -- A part of a set's text has no white space inside, so the reader of the harness sees the same
  -- fields.
  have hparts : ∀ part ∈ GtidSet.parts text, (∃ p, GtidSet.PartOf (Py.dropSpaces part) p) ∧
      ∀ f ∈ part.splitOn ':', Py.dropSpaces f = f := by
    intro part hpart
    refine ⟨?_, fun f hf => dropSpaces_of_field hpart hf⟩
    rw [Py.dropSpaces_of_forall (GtidSet.not_isSpace_of_parts hpart)]
    exact (GtidSet.parse_ok_iff text).mp ⟨s, hs⟩ part hpart
  have hempty : ({} : Dict).pairs.Perm [] := .nil
  obtain ⟨out, hout, hperm⟩ := foldlM_readPart _ _ _ hparts hempty
  rw [List.append_nil] at hperm
  -- What was read is what the text mentions.
  have hpairs : ∀ x, x ∈ out.pairs ↔ ∃ m ∈ mentions text, (m.spelled, m.iv) = x := by
    intro x
    rw [hperm.mem_iff]
    exact List.mem_map
  have hvalid : ∀ kv ∈ out.entries, Interval.Valid kv.2 := by
    intro kv hkv iv hiv
    obtain ⟨m, hm, heq⟩ := (hpairs (kv.1, iv)).mp (Grouped.mem_pairs.mpr ⟨kv, hkv, rfl, hiv⟩)
    rw [← (Prod.mk.inj heq).2]
    exact (GtidSet.inRange_mentions hm).2.1
  -- At last the intervals are normalised, and keys without any are dropped.
  have hentries : ∀ kv, kv ∈ ((out.mapValues Interval.normalize).dropEmpty).entries ↔
      ∃ kv' ∈ out.entries, (kv'.1, Interval.normalize kv'.2) = kv ∧ kv.2 ≠ [] := by
    intro kv
    constructor
    · intro h
      obtain ⟨hin, hne⟩ := List.mem_filter.mp h
      obtain ⟨kv', hkv', rfl⟩ := List.mem_map.mp hin
      exact ⟨kv', hkv', rfl, by simpa using hne⟩
    · rintro ⟨kv', hkv', rfl, hne⟩
      exact List.mem_filter.mpr ⟨List.mem_map.mpr ⟨kv', hkv', rfl⟩, by simpa using hne⟩
  refine ⟨(out.mapValues Interval.normalize).dropEmpty, ?_, ⟨fun σ n => ?_, ?_, ?_⟩⟩
  · rw [parseGtid, hout]
    rfl
  · rw [mem_get_iff]
    constructor
    -- A number under a key comes from a mention.
    · rintro ⟨kv, hkv, rfl, hn⟩
      obtain ⟨kv', hkv', rfl, -⟩ := (hentries kv).mp hkv
      obtain ⟨iv, hiv, hin⟩ := (Interval.mem_normalize (hvalid kv' hkv') n).mp hn
      obtain ⟨m, hm, heq⟩ :=
        (hpairs (kv'.1, iv)).mp (Grouped.mem_pairs.mpr ⟨kv', hkv', rfl, hiv⟩)
      obtain ⟨hsp, heq'⟩ := Prod.mk.inj heq
      refine ⟨m, hm, hsp, ?_⟩
      rw [heq']
      exact hin
    -- And a mention puts its numbers there; a key with a number is not dropped.
    · rintro ⟨m, hm, rfl, hn⟩
      obtain ⟨kv', hkv', hkey, hiv⟩ := Grouped.mem_pairs.mp ((hpairs _).mpr ⟨m, hm, rfl⟩)
      have hnorm := (Interval.mem_normalize (hvalid kv' hkv') n).mpr ⟨m.iv, hiv, hn⟩
      have hne : Interval.normalize kv'.2 ≠ [] := by
        intro hnil
        rw [hnil] at hnorm
        exact Interval.not_mem_nil n hnorm
      exact ⟨_, (hentries _).mpr ⟨kv', hkv', rfl, hne⟩, hkey, hnorm⟩
  · intro kv hkv
    obtain ⟨-, -, -, hne⟩ := (hentries kv).mp hkv
    exact hne
  · intro kv hkv
    obtain ⟨kv', hkv', rfl, -⟩ := (hentries kv).mp hkv
    exact Interval.normal_normalize (hvalid kv' hkv')

/-! ### Comparing -/

/-- The text writes the transaction, with its key spelled so. -/
def Writes (text : String) (σ : List Char) (g : Gtid) : Prop :=
  ∃ m ∈ mentions text, m.spelled = σ ∧ m.Names g

/-- The set of a text is what the text writes. -/
theorem mem_iff_writes {text : String} {s : GtidSet} (hs : GtidSet.parse text = .ok s) (g : Gtid) :
    g ∈ s ↔ ∃ σ, Writes text σ g := by
  rw [GtidSet.mem_iff_mentioned id hs (map_parts text) g]
  constructor
  · rintro ⟨m, hm, hg⟩
    exact ⟨m.spelled, m, hm, rfl, hg⟩
  · rintro ⟨σ, m, hm, -, hg⟩
    exact ⟨m, hm, hg⟩

/-- A spelling stands for one key, in all texts. -/
theorem key_eq_of_writes {a b : String} {σ : List Char} {g g' : Gtid} (h : Writes a σ g)
    (h' : Writes b σ g') : g.1 = g'.1 := by
  obtain ⟨m, hm, hsp, hk, -⟩ := h
  obtain ⟨m', hm', hsp', hk', -⟩ := h'
  rw [← hk, ← hk']
  exact GtidSet.key_eq_of_spelled GtidSet.spells_id flush_of_mentions flush_of_mentions hm hm'
    (hsp.trans hsp'.symm)

/-- A text that writes a transaction writes its number under that uuid. -/
theorem Writes.at {text : String} {σ : List Char} {g : Gtid} (h : Writes text σ g) :
    WritesAt text σ g.2 := by
  obtain ⟨m, hm, hsp, -, hn⟩ := h
  exact ⟨m, hm, hsp, hn⟩

/-- And the other way round, with some tag. -/
theorem WritesAt.exists {text : String} {σ : List Char} {n : Int} (h : WritesAt text σ n) :
    ∃ k, Writes text σ (k, n) := by
  obtain ⟨m, hm, hsp, hn⟩ := h
  exact ⟨m.key, m, hm, hsp, rfl, hn⟩

/-- Under the spelling of a transaction its number is the transaction. -/
theorem WritesAt.of_writes {a b : String} {σ : List Char} {g : Gtid} (h : WritesAt b σ g.2)
    (ha : Writes a σ g) : Writes b σ g := by
  obtain ⟨k, hk⟩ := h.exists
  have hkey : g.1 = k := key_eq_of_writes ha hk
  subst hkey
  exact hk

/-- The first text writes nothing that the second does not write in the same spelling. -/
def Within (a b : String) : Prop := ∀ σ g, Writes a σ g → Writes b σ g

/-- To be within is to write nothing else under any uuid. -/
theorem within_iff {a b : String} :
    Within a b ↔ ∀ σ n, WritesAt a σ n → WritesAt b σ n := by
  constructor
  · intro h σ n hn
    obtain ⟨k, hk⟩ := hn.exists
    exact (h σ _ hk).at
  · intro h σ g hg
    exact (h σ g.2 hg.at).of_writes hg

/-- A text within another one has a smaller set. -/
theorem Within.subset {a b : String} {A B : GtidSet} (ha : GtidSet.parse a = .ok A)
    (hb : GtidSet.parse b = .ok B) (h : Within a b) : A ⊆ B := by
  intro g hg
  obtain ⟨σ, hσ⟩ := (mem_iff_writes ha g).mp hg
  exact (mem_iff_writes hb g).mpr ⟨σ, h σ g hσ⟩

/-- `gtid_subset` compares the texts spelling by spelling. -/
theorem gtidSubset_eq {a b : String} {A B : GtidSet} (ha : GtidSet.parse a = .ok A)
    (hb : GtidSet.parse b = .ok B) :
    ∃ x, gtidSubset a b = some x ∧ (x = true ↔ Within a b) := by
  obtain ⟨pa, hpa, hha⟩ := parseGtid_of_parse ha
  obtain ⟨pb, hpb, hhb⟩ := parseGtid_of_parse hb
  have heq : gtidSubset a b = some (pa.entries.all fun kv => kv.2.all fun iv =>
      (pb.get kv.1).any fun biv => biv.1 ≤ iv.1 && iv.2 ≤ biv.2) := by
    rw [gtidSubset, hpb, Option.bind_some, hpa]
    rfl
  refine ⟨_, heq, ?_⟩
  rw [within_iff]
  simp only [List.all_eq_true, List.any_eq_true, Bool.and_eq_true, decide_eq_true_eq]
  constructor
  · intro h σ n hn
    obtain ⟨kv, hkv, rfl, iv, hiv, hin⟩ := mem_get_iff.mp ((hha.mem σ n).mpr hn)
    obtain ⟨biv, hbiv, hlo, hhi⟩ := h kv hkv iv hiv
    exact (hhb.mem _ _).mp ⟨biv, hbiv, by omega, by omega⟩
  · intro h kv hkv iv hiv
    refine (hhb.normal_get kv.1).exists_covering ((hha.normal kv hkv).2 iv hiv) fun n hn hn' => ?_
    exact (hhb.mem _ _).mpr (h _ _ ((hha.mem _ _).mp (mem_get_iff.mpr
      ⟨kv, hkv, rfl, iv, hiv, hn, hn'⟩)))

/-- `gtid_equal` does so too. -/
theorem gtidEqual_eq {a b : String} {A B : GtidSet} (ha : GtidSet.parse a = .ok A)
    (hb : GtidSet.parse b = .ok B) :
    ∃ x, gtidEqual a b = some x ∧ (x = true ↔ Within a b ∧ Within b a) := by
  obtain ⟨pa, hpa, hha⟩ := parseGtid_of_parse ha
  obtain ⟨pb, hpb, hhb⟩ := parseGtid_of_parse hb
  have heq : gtidEqual a b = some (pa.eq pb) := by
    rw [gtidEqual, hpa, Option.bind_some, hpb]
    rfl
  -- Equal texts have equal entries: a key is there with a number, and the intervals are in normal
  -- form.
  have hentry : ∀ {a b : String} {pa pb : Dict}, Holds pa a → Holds pb b → Within a b →
      Within b a → ∀ kv ∈ pa.entries, kv ∈ pb.entries := by
    intro a b pa pb hha hhb hab hba kv hkv
    obtain ⟨n, hn⟩ := (hha.normal kv hkv).exists_mem (hha.nonempty kv hkv)
    have hw := (hha.mem kv.1 n).mp (mem_get_iff.mpr ⟨kv, hkv, rfl, hn⟩)
    obtain ⟨kv', hkv', hkey, -⟩ :=
      mem_get_iff.mp ((hhb.mem kv.1 n).mpr (within_iff.mp hab _ _ hw))
    have hsame : ∀ n, Interval.Mem n kv.2 ↔ Interval.Mem n kv'.2 := by
      intro n
      have hget := Grouped.get_of_mem hkv
      have hget' := Grouped.get_of_mem hkv'
      rw [hkey] at hget'
      rw [← hget, ← hget', hha.mem, hhb.mem]
      exact ⟨within_iff.mp hab _ _, within_iff.mp hba _ _⟩
    have hval := (hha.normal kv hkv).ext (hhb.normal kv' hkv') hsame
    have hsame' : kv = kv' := Prod.ext hkey.symm hval
    exact hsame' ▸ hkv'
  refine ⟨_, heq, ?_⟩
  rw [Grouped.eq_iff]
  constructor
  -- The other way round each entry is found in the other dictionary.
  · intro h
    refine ⟨within_iff.mpr fun σ n hn => ?_, within_iff.mpr fun σ n hn => ?_⟩
    · obtain ⟨kv, hkv, hrest⟩ := mem_get_iff.mp ((hha.mem σ n).mpr hn)
      exact (hhb.mem σ n).mp (mem_get_iff.mpr ⟨kv, (h kv).mp hkv, hrest⟩)
    · obtain ⟨kv, hkv, hrest⟩ := mem_get_iff.mp ((hhb.mem σ n).mpr hn)
      exact (hha.mem σ n).mp (mem_get_iff.mpr ⟨kv, (h kv).mpr hkv, hrest⟩)
  · rintro ⟨hab, hba⟩ kv
    exact ⟨hentry hha hhb hab hba kv, hentry hhb hha hba hab kv⟩

/-! ### Counting -/

/-- What the text writes, spelling by spelling. -/
def written (text : String) : Set (List Char × Gtid) := {x | Writes text x.1 x.2}

/-- `gtid_count` counts spelling by spelling. -/
theorem gtidCount_eq {a : String} {A : GtidSet} (ha : GtidSet.parse a = .ok A) :
    gtidCount a = some ((written a).ncard : Int) ∧ (written a).Finite := by
  obtain ⟨pa, hpa, hha⟩ := parseGtid_of_parse ha
  have hinj : Set.InjOn (fun x : List Char × Gtid => (x.1, x.2.2)) (written a) := by
    rintro ⟨σ, g⟩ hg ⟨σ', g'⟩ hg' heq
    obtain ⟨rfl, hn⟩ := Prod.mk.inj heq
    exact Prod.ext rfl (Prod.ext (key_eq_of_writes hg hg') hn)
  have himage : (fun x : List Char × Gtid => (x.1, x.2.2)) '' written a =
      Interval.keyed pa.entries := by
    ext ⟨σ, n⟩
    show _ ↔ ∃ kv ∈ pa.entries, kv.1 = σ ∧ Interval.Mem n kv.2
    rw [← mem_get_iff, hha.mem]
    constructor
    · rintro ⟨⟨σ', g⟩, hg, heq⟩
      obtain ⟨rfl, rfl⟩ := Prod.mk.inj heq
      exact Writes.at hg
    · intro h
      obtain ⟨k, hk⟩ := h.exists
      exact ⟨(σ, (k, n)), hk, rfl⟩
  have hcount : gtidCount a = some (pa.entries.map fun kv => Interval.count kv.2).sum := by
    rw [gtidCount, hpa]
    rfl
  constructor
  · rw [hcount, Interval.sum_count_eq_ncard pa.nodup hha.normal, ← himage,
      hinj.ncard_image]
  · refine Set.Finite.of_finite_image ?_ hinj
    rw [himage]
    exact Interval.finite_keyed _

/-- The set of a text is what it writes, without the spellings. -/
theorem image_written {a : String} {A : GtidSet} (ha : GtidSet.parse a = .ok A) :
    Prod.snd '' written a = {g | g ∈ A} := by
  ext g
  show _ ↔ g ∈ A
  rw [mem_iff_writes ha]
  constructor
  · rintro ⟨⟨σ, g⟩, hg, rfl⟩
    exact ⟨σ, hg⟩
  · rintro ⟨σ, hg⟩
    exact ⟨(σ, g), hg, rfl⟩

/-! ### Subtracting -/

/-- What `missing` leaves of the interval is what the second list does not cover. -/
theorem mem_missing (hi n : Int) :
    ∀ (b : List (Int × Int)) (cur : Int), Interval.Normal b →
      (Interval.Mem n (missing hi cur b) ↔ (cur ≤ n ∧ n ≤ hi) ∧ ¬ Interval.Mem n b) := by
  intro b
  induction b with
  | nil =>
      intro cur _
      rw [missing]
      split
      · simp
      · simp only [Interval.not_mem_nil, false_iff, not_false_eq_true, and_true]
        omega
  | cons iv b ih =>
      intro cur hb
      obtain ⟨blo, bhi⟩ := iv
      obtain ⟨hle, hgap, hrest⟩ := (Interval.normal_cons _ _).mp hb
      simp only at hle hgap
      -- Nothing later in the list reaches below `bhi + 2`.
      have hlate : Interval.Mem n b → bhi + 1 < n := Interval.lt_of_mem hgap
      rw [missing]
      by_cases hskip : bhi < cur ∨ hi < blo
      · rw [if_pos hskip, ih cur hrest, Interval.mem_cons]
        constructor
        · rintro ⟨hn, hno⟩
          refine ⟨hn, ?_⟩
          rintro (h | h)
          · omega
          · exact hno h
        · rintro ⟨hn, hno⟩
          exact ⟨hn, fun h => hno (.inr h)⟩
      · have hpiece : Interval.Mem n (if cur < blo then [(cur, blo - 1)] else []) ↔
            cur ≤ n ∧ n < blo := by
          split
          · simp only [Interval.mem_cons, Interval.not_mem_nil, or_false]
            omega
          · simp only [Interval.not_mem_nil, false_iff]
            omega
        rw [if_neg hskip, Interval.mem_append, hpiece, ih _ hrest, Interval.mem_cons]
        constructor
        · rintro (h | ⟨h, hno⟩)
          · refine ⟨by omega, ?_⟩
            rintro (h' | h')
            · omega
            · have hlater := hlate h'
              omega
          · refine ⟨by omega, ?_⟩
            rintro (h' | h')
            · omega
            · exact hno h'
        · rintro ⟨hn, hno⟩
          by_cases hlt : n < blo
          · exact .inl ⟨hn.1, hlt⟩
          · have hgt : bhi < n := by
              by_contra hge
              exact hno (.inl (by omega))
            exact .inr ⟨by omega, fun h => hno (.inr h)⟩

/-- The gaps of a list are valid intervals. -/
theorem valid_missing (hi : Int) :
    ∀ (b : List (Int × Int)) (cur : Int), Interval.Valid (missing hi cur b) := by
  intro b
  induction b with
  | nil =>
      intro cur
      rw [missing]
      split
      · rename_i h
        exact (Interval.valid_cons _ _).mpr ⟨h, Interval.valid_nil⟩
      · exact Interval.valid_nil
  | cons iv b ih =>
      intro cur
      obtain ⟨blo, bhi⟩ := iv
      rw [missing]
      split
      · exact ih cur
      · refine Interval.Valid.append ?_ (ih _)
        split
        · exact (Interval.valid_cons _ _).mpr ⟨by simp only; omega, Interval.valid_nil⟩
        · exact Interval.valid_nil

/-- An interval in range is printed so that `GtidSet` reads it. -/
theorem fieldOf_ivText {iv : Int × Int} (h : 1 ≤ iv.1 ∧ iv.1 ≤ iv.2 ∧ iv.2 ≤ GtidSet.maxGno) :
    GtidSet.fieldOf (ivText iv) = some (.interval iv) ∧
      ∀ c ∈ ivText iv, c = '-' ∨ c.isDigit = true := by
  have hrange : (GtidSet.Piece.mk iv.1 iv.2 false).InRange := h
  have htext : ivText iv = (GtidSet.Piece.mk iv.1 iv.2 false).text := by
    rw [ivText, GtidSet.Piece.text]
    by_cases heq : iv.1 = iv.2
    · rw [if_neg (not_not.mpr heq), if_pos ⟨heq, rfl⟩]
      rfl
    · rw [if_pos heq, if_neg fun h => heq h.1]
      rfl
  obtain ⟨hiv, hshort⟩ := hrange.text
  rw [htext]
  exact ⟨(GtidSet.FieldText.interval hiv h.1 h.2.1 h.2.2).fieldOf_eq.2 hshort, hiv.mem⟩

/-- The uuid of an accepted part in lower case is read again as the same uuid. -/
theorem normUuid_lower {head uuid : List Char} (hsolid : Py.dropSpaces head = head)
    (h : GtidSet.normUuid (Py.dropSpaces head) = .ok uuid) :
    GtidSet.normUuid (Py.lower head) = .ok uuid ∧
      ∀ c ∈ Py.lower head, GtidSet.isHex c = true ∨ c = '-' := by
  have hstrip : Py.strip head = head := by
    rw [← hsolid]
    exact Py.strip_of_forall fun c => Py.not_isSpace_of_mem_dropSpaces
  have hre : GtidSet.uuidRe (Py.lower head) = true := by
    have hok := (GtidSet.normUuid_isOk _).mp ⟨uuid, h⟩
    rw [hsolid, hstrip] at hok
    exact hok
  -- The head matches in lower case: hex digits and dashes.
  obtain ⟨groups⟩ := (GtidSet.uuidRe_iff _).mp hre
  have hmem : ∀ c ∈ Py.lower head, GtidSet.isHex c = true ∨ c = '-' := fun c => groups.mem
  -- None of these changes in lower case, so lowering twice changes nothing.
  have hcode : ∀ c ∈ Py.lower head, 45 ≤ c.toNat ∧ c.toNat ≤ 102 ∧ c.toLower = c := by
    intro c hc
    have hnat := Py.toNat_toLower c
    rcases hmem c hc with hhex | rfl
    · have hrange := (GtidSet.isHex_iff c).mp hhex
      rw [if_neg (by omega)] at hnat
      exact ⟨by omega, by omega, Char.toNat_inj.mp hnat⟩
    · exact ⟨by decide, by decide, rfl⟩
  have hsame : Py.lower (Py.lower head) = Py.lower head := by
    rw [Py.lower_of_forall fun c hc => ?_]
    · exact (List.map_congr_left fun c hc => (hcode c hc).2.2).trans (List.map_id _)
    · have hle := (hcode c hc).2.1
      exact ⟨by rintro rfl; revert hle; decide, by rintro rfl; revert hle; decide⟩
  -- None is white space either.
  have hagain : Py.strip (Py.lower head) = Py.lower head := by
    refine Py.strip_of_forall fun c hc => ?_
    have hcode' := hcode c hc
    rw [← hcode'.2.2] at hcode'
    exact Py.not_isSpace_of_toLower hcode'.1 (by omega)
  refine ⟨?_, hmem⟩
  rw [hsolid] at h
  unfold GtidSet.normUuid at h ⊢
  rw [hstrip] at h
  rw [hagain, hsame]
  dsimp only at h ⊢
  rw [hre] at h ⊢
  exact h

/-- Fields of one tag are walked in turn. -/
theorem walk_intervals (tag : List Char) (ivs : List (Int × Int)) :
    GtidSet.walk tag (ivs.map .interval) = ivs.map fun iv => (tag, iv) := by
  induction ivs with
  | nil => rfl
  | cons iv ivs ih =>
      rw [List.map_cons, GtidSet.walk, ih]
      rfl

/-- The numbers that are missing under one key. -/
theorem mem_gaps {a b : String} {pa pb : Dict} (hha : Holds pa a) (hhb : Holds pb b)
    {kv : List Char × List (Int × Int)} (hkv : kv ∈ pa.entries) (n : Int) :
    Interval.Mem n (kv.2.flatMap fun iv => missing iv.2 iv.1 (pb.get kv.1)) ↔
      WritesAt a kv.1 n ∧ ¬ WritesAt b kv.1 n := by
  have hpiece : ∀ iv : Int × Int, Interval.Mem n (missing iv.2 iv.1 (pb.get kv.1)) ↔
      (iv.1 ≤ n ∧ n ≤ iv.2) ∧ ¬ WritesAt b kv.1 n := by
    intro iv
    rw [mem_missing _ _ _ _ (hhb.normal_get kv.1), hhb.mem]
  rw [← hha.mem, Grouped.get_of_mem hkv]
  constructor
  · rintro ⟨q, hq, hn⟩
    obtain ⟨iv, hiv, hq⟩ := List.mem_flatMap.mp hq
    obtain ⟨hin, hno⟩ := (hpiece iv).mp ⟨q, hq, hn⟩
    exact ⟨⟨iv, hiv, hin⟩, hno⟩
  · rintro ⟨⟨iv, hiv, hin⟩, hno⟩
    obtain ⟨q, hq, hn⟩ := (hpiece iv).mpr ⟨hin, hno⟩
    exact ⟨q, List.mem_flatMap.mpr ⟨iv, hiv, hq⟩, hn⟩

/-- A text that stays one part: no comma and no white space. -/
structure Uncut (t : List Char) : Prop where
  nonempty : t ≠ []
  comma : ',' ∉ t
  solid : ∀ c ∈ t, Py.isSpace c = false

/-- The parts of joined parts. -/
theorem parts_join {ts : List (List Char)} (h : ∀ t ∈ ts, Uncut t) :
    GtidSet.parts (String.ofList ([','].intercalate ts)) = ts := by
  have hsolid : Py.dropSpaces ([','].intercalate ts) = [','].intercalate ts := by
    refine Py.dropSpaces_of_forall fun c hc => ?_
    rcases Py.mem_intercalate ts hc with rfl | ⟨t, ht, hct⟩
    · decide
    · exact (h t ht).solid c hct
  rw [GtidSet.parts, String.toList_ofList, hsolid]
  by_cases hnil : ts = []
  · rw [hnil]
    rfl
  · rw [List.splitOn_intercalate ',' (fun t ht => (h t ht).comma) hnil]
    exact List.filter_eq_self.mpr fun t ht => by simpa using (h t ht).nonempty

/-- Colons go between the two lists, too. -/
theorem intercalate_append {l l' : List (List Char)} (h : l ≠ []) (h' : l' ≠ []) :
    [':'].intercalate (l ++ l') = [':'].intercalate l ++ ':' :: [':'].intercalate l' := by
  induction l with
  | nil => exact absurd rfl h
  | cons x l ih =>
      cases l with
      | nil =>
          obtain ⟨y, l', rfl⟩ := List.exists_cons_of_ne_nil h'
          rw [List.intercalate_singleton, List.singleton_append, List.intercalate_cons_cons,
            List.append_assoc]
          rfl
      | cons y l =>
          rw [List.cons_append, List.cons_append, List.intercalate_cons_cons,
            List.intercalate_cons_cons, ← List.cons_append, ih (List.cons_ne_nil _ _)]
          simp only [List.append_assoc]

/-- The tag of a mention, as fields of its part. -/
theorem tag_fields {m : Mention} {head uuid spelled tag : List Char} {fields : List (List Char)}
    (h : m.From id head fields uuid spelled tag) (hsolid : ∀ f ∈ fields, Py.dropSpaces f = f) :
    ∃ (tags : List (List Char)) (fs : List GtidSet.Field),
      m.spelled = [':'].intercalate (Py.lower head :: tags) ∧ (∀ f ∈ tags, f ∈ fields) ∧
        List.Forall₂ (fun f fd => GtidSet.fieldOf f = some fd) tags fs ∧
          ∀ fs', GtidSet.walk [] (fs ++ fs') = GtidSet.walk tag fs' := by
  rw [h.spells]
  rcases h.tag_ok with ⟨rfl, rfl⟩ | ⟨f, hf, hid, hread⟩
  · exact ⟨[], [], by simp [GtidSet.spelledKey], by simp, .nil, fun _ => rfl⟩
  · have hself : spelled = f := hid
    rw [hsolid f hf, ← hself] at hread
    have hne : spelled ≠ [] := by
      rintro rfl
      cases hread
    refine ⟨[spelled], [.tag tag], ?_, by simpa using hself ▸ hf, .cons hread .nil, fun _ => rfl⟩
    rw [GtidSet.spelledKey, if_neg hne, List.intercalate_cons_cons, List.intercalate_singleton,
      List.append_assoc]
    rfl

/-- What is missing under a key is in range, since the first text writes it. -/
theorem gaps_inRange {a : String} {σ : List Char} {gaps : List (Int × Int)}
    (hmem : ∀ n, Interval.Mem n gaps → WritesAt a σ n) (hvalid : Interval.Valid gaps)
    {iv : Int × Int} (hiv : iv ∈ gaps) : 1 ≤ iv.1 ∧ iv.1 ≤ iv.2 ∧ iv.2 ≤ GtidSet.maxGno := by
  have hle := hvalid iv hiv
  obtain ⟨m, hm, -, hlo⟩ := hmem iv.1 ⟨iv, hiv, le_refl _, hle⟩
  obtain ⟨m', hm', -, hhi⟩ := hmem iv.2 ⟨iv, hiv, hle, le_refl _⟩
  have hr := GtidSet.inRange_mentions hm
  have hr' := GtidSet.inRange_mentions hm'
  exact ⟨by omega, hle, by omega⟩

/-- Characters that cut a text. -/
def Cuts (c : Char) : Prop := c = ':' ∨ c = ',' ∨ Py.isSpace c = true

/-- A character of a number or of a uuid cuts nothing. -/
theorem not_cuts_of_le {c : Char} (h : 45 ≤ c.toNat) (h' : c.toNat ≤ 57 ∨ 97 ≤ c.toNat)
    (h'' : c.toNat ≤ 122) : ¬ Cuts c := by
  have hnat := Py.toNat_toLower c
  rw [if_neg (by omega)] at hnat
  rintro (rfl | rfl | hspace)
  · revert h h'
    decide
  · revert h
    decide
  · rw [Py.not_isSpace_of_toLower (by omega) (by omega)] at hspace
    cases hspace

/-- A part for a key: the uuid, the tag if there is one, and intervals in range. -/
theorem partOf_join {text : String} {raw head uuid spelled tag : List Char} {m : Mention}
    {fields : List (List Char)} (hraw : raw ∈ GtidSet.parts text)
    (hsplit : raw.splitOn ':' = head :: fields) (hfrom : m.From id head fields uuid spelled tag)
    {gaps : List (Int × Int)} (hne : gaps ≠ [])
    (hrange : ∀ iv ∈ gaps, 1 ≤ iv.1 ∧ iv.1 ≤ iv.2 ∧ iv.2 ≤ GtidSet.maxGno) :
    Uncut (m.spelled ++ ':' :: [':'].intercalate (gaps.map ivText)) ∧
      ∃ p, GtidSet.PartOf (m.spelled ++ ':' :: [':'].intercalate (gaps.map ivText)) p ∧
        ∀ g, GtidSet.NamedBy p.1 [] p.2 g ↔ m.key = g.1 ∧ Interval.Mem g.2 gaps := by
  have hfield : ∀ f ∈ head :: fields, Py.dropSpaces f = f := fun f hf =>
    dropSpaces_of_field hraw (hsplit ▸ hf)
  obtain ⟨huuid, hhex⟩ := normUuid_lower (hfield head List.mem_cons_self) hfrom.head_ok
  obtain ⟨tags, tfs, hsp, htags, htfs, hwalk⟩ :=
    tag_fields hfrom fun f hf => hfield f (List.mem_cons_of_mem _ hf)
  have hnil : gaps.map ivText ≠ [] := fun h => hne (List.map_eq_nil_iff.mp h)
  have hjoin : m.spelled ++ ':' :: [':'].intercalate (gaps.map ivText) =
      [':'].intercalate (Py.lower head :: (tags ++ gaps.map ivText)) := by
    rw [hsp, ← intercalate_append (List.cons_ne_nil _ _) hnil]
    rfl
  -- No piece has a character at which it would be cut.
  have hcuts : ∀ piece ∈ Py.lower head :: (tags ++ gaps.map ivText), ∀ c ∈ piece, ¬ Cuts c := by
    intro piece hpiece c hc
    rcases List.mem_cons.mp hpiece with rfl | hpiece
    · rcases hhex c hc with hx | rfl
      · have hx' := (GtidSet.isHex_iff c).mp hx
        exact not_cuts_of_le (by omega) (by omega) (by omega)
      · exact not_cuts_of_le (by decide) (by decide) (by decide)
    · rcases List.mem_append.mp hpiece with hpiece | hpiece
      · have hin : piece ∈ raw.splitOn ':' := by
          rw [hsplit]
          exact List.mem_cons_of_mem _ (htags piece hpiece)
        rintro (rfl | rfl | hspace)
        · exact Py.not_mem_of_splitOn hin hc
        · exact Py.not_mem_of_splitOn (List.mem_filter.mp hraw).1
            (Py.mem_of_mem_splitOn hin hc)
        · rw [← dropSpaces_of_field hraw hin] at hc
          rw [Py.not_isSpace_of_mem_dropSpaces hc] at hspace
          cases hspace
      · obtain ⟨iv, hiv, rfl⟩ := List.mem_map.mp hpiece
        rcases (fieldOf_ivText (hrange iv hiv)).2 c hc with rfl | hdigit
        · exact not_cuts_of_le (by decide) (by decide) (by decide)
        · have hd := (Py.isDigit_iff c).mp hdigit
          exact not_cuts_of_le (by omega) (by omega) (by omega)
  have hcut : ([':'].intercalate (Py.lower head :: (tags ++ gaps.map ivText))).splitOn ':' =
      Py.lower head :: (tags ++ gaps.map ivText) :=
    List.splitOn_intercalate ':' (fun piece hpiece hc => hcuts piece hpiece ':' hc (.inl rfl))
      (List.cons_ne_nil _ _)
  rw [hjoin]
  refine ⟨⟨?_, ?_, ?_⟩, (uuid, tfs ++ gaps.map .interval), ⟨?_, ?_⟩, fun g => ?_⟩
  · rw [← hjoin]
    simp
  · intro hc
    rcases Py.mem_intercalate _ hc with h | ⟨piece, hpiece, hc⟩
    · revert h
      decide
    · exact hcuts piece hpiece _ hc (.inr (.inl rfl))
  · intro c hc
    rcases Py.mem_intercalate _ hc with rfl | ⟨piece, hpiece, hc⟩
    · decide
    · exact Bool.eq_false_iff.mpr fun h => hcuts piece hpiece c hc (.inr (.inr h))
  · refine ⟨_, _, hcut, huuid, List.rel_append htfs ?_⟩
    rw [List.forall₂_map_left_iff, List.forall₂_map_right_iff, List.forall₂_same]
    exact fun iv hiv => (fieldOf_ivText (hrange iv hiv)).1
  · obtain ⟨iv, hiv⟩ := List.exists_mem_of_ne_nil _ hne
    refine List.any_eq_true.mpr ⟨.interval iv, List.mem_append_right _ ?_, rfl⟩
    exact List.mem_map.mpr ⟨iv, hiv, rfl⟩
  · rw [hfrom.key]
    unfold GtidSet.NamedBy
    rw [hwalk, walk_intervals]
    constructor
    · rintro ⟨ti, hti, hkey, hn⟩
      obtain ⟨iv, hiv, rfl⟩ := List.mem_map.mp hti
      exact ⟨hkey, iv, hiv, hn⟩
    · rintro ⟨hkey, iv, hiv, hn⟩
      exact ⟨(tag, iv), List.mem_map.mpr ⟨iv, hiv, rfl⟩, hkey, hn⟩

/-- What `gtid_minus` prints for one key is a part that names what is missing under it. -/
theorem partOf_minusPart {a b : String} {pa pb : Dict} (hha : Holds pa a) (hhb : Holds pb b)
    {kv : List Char × List (Int × Int)} (hkv : kv ∈ pa.entries) {t : List Char}
    (ht : minusPart pb kv = some t) :
    Uncut t ∧ ∃ p, GtidSet.PartOf t p ∧
      ∀ g, GtidSet.NamedBy p.1 [] p.2 g ↔ Writes a kv.1 g ∧ ¬ Writes b kv.1 g := by
  obtain ⟨gaps, hgaps⟩ : ∃ gaps, gaps = kv.2.flatMap fun iv => missing iv.2 iv.1 (pb.get kv.1) :=
    ⟨_, rfl⟩
  have hmem : ∀ n, Interval.Mem n gaps ↔ WritesAt a kv.1 n ∧ ¬ WritesAt b kv.1 n := by
    rw [hgaps]
    exact mem_gaps hha hhb hkv
  have hvalid : Interval.Valid gaps := by
    intro iv hiv
    rw [hgaps] at hiv
    obtain ⟨iv', -, hin⟩ := List.mem_flatMap.mp hiv
    exact valid_missing _ _ _ iv hin
  obtain ⟨hne, rfl⟩ : gaps ≠ [] ∧ kv.1 ++ ':' :: [':'].intercalate (gaps.map ivText) = t := by
    simp only [minusPart, ← hgaps] at ht
    split at ht
    · cases ht
    · rename_i hne
      exact ⟨hne, Option.some.inj ht⟩
  -- The mention that the key comes from.
  obtain ⟨n, hn⟩ := (hha.normal kv hkv).exists_mem (hha.nonempty kv hkv)
  obtain ⟨m, hm, hsp, hin⟩ := (hha.mem kv.1 n).mp (mem_get_iff.mpr ⟨kv, hkv, rfl, hn⟩)
  obtain ⟨raw, hraw, head, fields, uuid, spelled, tag, hsplit, hfrom⟩ :=
    GtidSet.from_of_mentions flush_of_mentions hm
  obtain ⟨huncut, p, hp, hnamed⟩ := partOf_join hraw hsplit hfrom hne
    fun iv hiv => gaps_inRange (fun n hn => ((hmem n).mp hn).1) hvalid hiv
  rw [hsp] at huncut hp
  refine ⟨huncut, p, hp, fun g => ?_⟩
  have hself : Writes a kv.1 (m.key, n) := ⟨m, hm, hsp, rfl, hin⟩
  rw [hnamed, hmem]
  constructor
  · rintro ⟨hkey, ha, hb⟩
    obtain ⟨k, hk⟩ := ha.exists
    have hsame : k = g.1 := (key_eq_of_writes hk hself).trans hkey
    subst hsame
    exact ⟨hk, fun h => hb h.at⟩
  · rintro ⟨ha, hb⟩
    exact ⟨key_eq_of_writes hself ha, ha.at, fun h => hb (h.of_writes ha)⟩

/-- `gtid_minus` subtracts spelling by spelling, and prints what `GtidSet` reads. -/
theorem gtidMinus_eq {a b : String} {A B : GtidSet} (ha : GtidSet.parse a = .ok A)
    (hb : GtidSet.parse b = .ok B) :
    ∃ t S, gtidMinus a b = some t ∧ GtidSet.parse t = .ok S ∧
      ∀ g, g ∈ S ↔ ∃ σ, Writes a σ g ∧ ¬ Writes b σ g := by
  obtain ⟨pa, hpa, hha⟩ := parseGtid_of_parse ha
  obtain ⟨pb, hpb, hhb⟩ := parseGtid_of_parse hb
  obtain ⟨ts, hts⟩ : ∃ ts, ts = (pa.entries.insertionSort itemLe).filterMap (minusPart pb) :=
    ⟨_, rfl⟩
  have hin : ∀ kv, kv ∈ pa.entries.insertionSort itemLe ↔ kv ∈ pa.entries := fun kv =>
    (List.perm_insertionSort itemLe pa.entries).mem_iff
  have htext : gtidMinus a b = some (String.ofList ([','].intercalate ts)) := by
    rw [gtidMinus, hpb, Option.bind_some, hpa, hts]
    rfl
  have hparts : ∀ t ∈ ts, ∃ kv ∈ pa.entries, minusPart pb kv = some t := by
    intro t ht
    rw [hts] at ht
    obtain ⟨kv, hkv, ht⟩ := List.mem_filterMap.mp ht
    exact ⟨kv, (hin kv).mp hkv, ht⟩
  obtain ⟨ps, hps⟩ := GtidSet.exists_forall₂ (R := fun t p => GtidSet.PartOf t p ∧
      ∃ kv ∈ pa.entries, minusPart pb kv = some t ∧
        ∀ g, GtidSet.NamedBy p.1 [] p.2 g ↔ Writes a kv.1 g ∧ ¬ Writes b kv.1 g)
    fun t ht => by
      obtain ⟨kv, hkv, hminus⟩ := hparts t ht
      obtain ⟨-, p, hp, hnamed⟩ := partOf_minusPart hha hhb hkv hminus
      exact ⟨p, hp, kv, hkv, hminus, hnamed⟩
  have hread : List.Forall₂ GtidSet.PartOf
      (GtidSet.parts (String.ofList ([','].intercalate ts))) ps := by
    rw [parts_join fun t ht => by
      obtain ⟨kv, hkv, hminus⟩ := hparts t ht
      exact (partOf_minusPart hha hhb hkv hminus).1]
    exact hps.imp fun t p h => h.1
  obtain ⟨S, hS, hmem⟩ := GtidSet.parse_of_parts hread
  refine ⟨_, S, htext, hS, fun g => ?_⟩
  rw [hmem]
  constructor
  · rintro ⟨p, hp, hnamed⟩
    obtain ⟨t, -, -, kv, -, -, hiff⟩ := GtidSet.forall₂_left hps.flip p hp
    exact ⟨kv.1, (hiff g).mp hnamed⟩
  · rintro ⟨σ, hw⟩
    -- The key of the spelling has a gap, so it has a part.
    obtain ⟨kv, hkv, rfl, -⟩ := mem_get_iff.mp ((hha.mem σ g.2).mpr hw.1.at)
    have hgap := (mem_gaps hha hhb hkv g.2).mpr ⟨hw.1.at, fun h => hw.2 (h.of_writes hw.1)⟩
    obtain ⟨t, ht⟩ : ∃ t, minusPart pb kv = some t := by
      refine ⟨_, if_neg fun hnil => ?_⟩
      rw [hnil] at hgap
      exact Interval.not_mem_nil _ hgap
    have hts' : t ∈ ts := by
      rw [hts]
      exact List.mem_filterMap.mpr ⟨kv, (hin kv).mpr hkv, ht⟩
    obtain ⟨p, hp, hpart, -⟩ := GtidSet.forall₂_left hps t hts'
    obtain ⟨-, p', hp', hiff'⟩ := partOf_minusPart hha hhb hkv ht
    rw [← hp'.unique hpart] at hp
    exact ⟨p', hp, (hiff' g).mpr hw⟩

/-! ### When the helpers agree with `GtidSet` -/

/-- The texts write a set in the same spellings wherever the first is a subset of the second. -/
def SubsetAlike (a b : String) (A B : GtidSet) : Prop := A ⊆ B → Within a b

/-- The texts write equal sets in the same spellings. -/
def EqualAlike (a b : String) (A B : GtidSet) : Prop := A = B → Within a b ∧ Within b a

/-- The text writes no transaction in two spellings. -/
def OneSpelling (a : String) : Prop := ∀ σ σ' g, Writes a σ g → Writes a σ' g → σ = σ'

/-- The second text writes what it has of the first in each spelling that the first uses. -/
def MinusAlike (a b : String) (B : GtidSet) : Prop := ∀ σ g, Writes a σ g → g ∈ B → Writes b σ g

/-- Two answers agree if and only if the weaker question implies the stronger one. -/
theorem agrees_iff {x y : Bool} {P Q : Prop} (hx : x = true ↔ P) (hy : y = true ↔ Q) (h : P → Q) :
    some x = some y ↔ (Q → P) := by
  rw [Option.some_inj, Bool.eq_iff_iff, hx, hy]
  exact ⟨fun heq => heq.mpr, fun hq => ⟨h, hq⟩⟩

section
variable {a b : String} {A B : GtidSet} (ha : GtidSet.parse a = .ok A)
  (hb : GtidSet.parse b = .ok B)
include ha hb

/-- `gtid_subset` agrees with the sets on spellings that are alike. -/
theorem subset_agrees : gtidSubset a b = some (A.isSubset B) ↔ SubsetAlike a b A B := by
  obtain ⟨x, hx, hwithin⟩ := gtidSubset_eq ha hb
  rw [hx]
  exact agrees_iff hwithin (GtidSet.isSubset_iff A B) fun h => h.subset ha hb

/-- So does `gtid_equal`. -/
theorem equal_agrees : gtidEqual a b = some (A.eq B) ↔ EqualAlike a b A B := by
  obtain ⟨x, hx, hwithin⟩ := gtidEqual_eq ha hb
  rw [hx]
  exact agrees_iff hwithin (GtidSet.eq_iff A B) fun h =>
    GtidSet.Subset.antisymm (h.1.subset ha hb) (h.2.subset hb ha)

/-- So does `gtid_minus`. -/
theorem minus_agrees :
    (∃ t, gtidMinus a b = some t ∧ GtidSet.parse t = .ok (A.subtract B)) ↔ MinusAlike a b B := by
  obtain ⟨t, S, ht, hS, hmem⟩ := gtidMinus_eq ha hb
  constructor
  · rintro ⟨t', ht', hS'⟩ σ g hg hgb
    rw [ht, Option.some_inj] at ht'
    subst ht'
    rw [hS, Except.ok.injEq] at hS'
    subst hS'
    by_contra hno
    exact ((GtidSet.mem_subtract A B g).mp ((hmem g).mpr ⟨σ, hg, hno⟩)).2 hgb
  · intro h
    refine ⟨t, ht, ?_⟩
    rw [hS, Except.ok.injEq]
    refine GtidSet.ext_mem fun g => (hmem g).trans (Iff.trans ?_ (GtidSet.mem_subtract A B g).symm)
    constructor
    · rintro ⟨σ, hg, hno⟩
      exact ⟨(mem_iff_writes ha g).mpr ⟨σ, hg⟩, fun hgb => hno (h σ g hg hgb)⟩
    · rintro ⟨hga, hgb⟩
      obtain ⟨σ, hσ⟩ := (mem_iff_writes ha g).mp hga
      exact ⟨σ, hσ, fun hw => hgb ((mem_iff_writes hb g).mpr ⟨σ, hw⟩)⟩

/-- So does `caught_up`, where the sets say that it is. -/
theorem caughtUp_agrees {c : String} {C : GtidSet} (hc : GtidSet.parse c = .ok C) :
    caughtUp a b c = some (A.isSubset B && B.isSubset C) ↔
      (A ⊆ B → B ⊆ C → Within a b ∧ Within b c) := by
  obtain ⟨x, hx, hwithin⟩ := gtidSubset_eq ha hb
  obtain ⟨y, hy, hwithin'⟩ := gtidSubset_eq hb hc
  have heq : caughtUp a b c = some (x && y) := by
    rw [caughtUp, hx, Option.bind_some]
    cases x with
    | false => rfl
    | true => rw [if_pos rfl, hy, Bool.true_and]
  have hboth : (x && y) = true ↔ Within a b ∧ Within b c := by
    rw [Bool.and_eq_true, hwithin, hwithin']
  have hsets : (A.isSubset B && B.isSubset C) = true ↔ A ⊆ B ∧ B ⊆ C := by
    rw [Bool.and_eq_true, GtidSet.isSubset_iff, GtidSet.isSubset_iff]
  rw [heq, agrees_iff hboth hsets fun h => ⟨h.1.subset ha hb, h.2.subset hb hc⟩]
  exact ⟨fun h hab hbc => h ⟨hab, hbc⟩, fun h hsub => h hsub.1 hsub.2⟩

end

/-- So does `gtid_count`, on a text with one spelling of each uuid. -/
theorem count_agrees {a : String} {A : GtidSet} (ha : GtidSet.parse a = .ok A) :
    gtidCount a = some A.count ↔ OneSpelling a := by
  obtain ⟨hcount, hfinite⟩ := gtidCount_eq ha
  rw [hcount, Option.some_inj, GtidSet.count_eq_ncard, ← image_written ha, Nat.cast_inj, eq_comm,
    Set.ncard_image_iff hfinite]
  constructor
  · intro h σ σ' g hg hg'
    have heq := h (show (σ, g) ∈ written a from hg) (show (σ', g) ∈ written a from hg') rfl
    exact (Prod.mk.inj heq).1
  · rintro h ⟨σ, g⟩ hg ⟨σ', g'⟩ hg' heq
    obtain rfl : g = g' := heq
    exact Prod.ext (h σ σ' g hg hg') rfl

/-- The helpers agree with `GtidSet` on accepted texts, each if and only if the texts spell
alike what it compares. -/
theorem helpers_agree (a b c : String) (A B C : GtidSet) (ha : GtidSet.parse a = .ok A)
    (hb : GtidSet.parse b = .ok B) (hc : GtidSet.parse c = .ok C) :
    (gtidSubset a b = some (A.isSubset B) ↔ SubsetAlike a b A B) ∧
      (gtidEqual a b = some (A.eq B) ↔ EqualAlike a b A B) ∧
      (gtidCount a = some A.count ↔ OneSpelling a) ∧
      ((∃ t, gtidMinus a b = some t ∧ GtidSet.parse t = .ok (A.subtract B)) ↔
        MinusAlike a b B) ∧
      (caughtUp a b c = some (A.isSubset B && B.isSubset C) ↔
        (A ⊆ B → B ⊆ C → Within a b ∧ Within b c)) :=
  ⟨subset_agrees ha hb, equal_agrees ha hb, count_agrees ha, minus_agrees ha hb,
    caughtUp_agrees ha hb hc⟩

/-- The tag of two parts of one uuid, written in one case. -/
theorem helpers_agree_tagged : ∃ A,
    GtidSet.parse "3E11FA47-71CA-11E1-9E33-C80AA9429562:1-3:blue:7" = .ok A ∧
      OneSpelling "3E11FA47-71CA-11E1-9E33-C80AA9429562:1-3:blue:7" := by
  refine ⟨.build [(("3e11fa47-71ca-11e1-9e33-c80aa9429562", ""), [(1, 3)]),
    (("3e11fa47-71ca-11e1-9e33-c80aa9429562", "blue"), [(7, 7)])] (by decide) (by decide), ?_⟩
  have ha : GtidSet.parse "3E11FA47-71CA-11E1-9E33-C80AA9429562:1-3:blue:7" =
      .ok (.build [(("3e11fa47-71ca-11e1-9e33-c80aa9429562", ""), [(1, 3)]),
        (("3e11fa47-71ca-11e1-9e33-c80aa9429562", "blue"), [(7, 7)])] (by decide) (by decide)) :=
    GtidSet.eq_ok_of_toOption (by decide +kernel)
  exact ⟨ha, (helpers_agree _ _ _ _ _ _ ha ha ha).2.2.1.mp (by decide +kernel)⟩

/-- A tag in another case is another key for the harness. -/
theorem tag_case_differs : ¬ ∀ (a b c : String) (A B C : GtidSet),
    GtidSet.parse a = .ok A → GtidSet.parse b = .ok B → GtidSet.parse c = .ok C →
      gtidSubset a b = some (A.isSubset B) ∧ gtidEqual a b = some (A.eq B) ∧
        gtidCount a = some A.count ∧
        (∃ t, gtidMinus a b = some t ∧ GtidSet.parse t = .ok (A.subtract B)) ∧
        caughtUp a b c = some (A.isSubset B && B.isSubset C) := by
  intro h
  have hsubset := (h "3e11fa47-71ca-11e1-9e33-c80aa9429562:Blue:7"
    "3e11fa47-71ca-11e1-9e33-c80aa9429562:blue:7" "" (.build
      [(("3e11fa47-71ca-11e1-9e33-c80aa9429562", "blue"), [(7, 7)])] (by decide) (by decide))
    (.build [(("3e11fa47-71ca-11e1-9e33-c80aa9429562", "blue"), [(7, 7)])] (by decide)
      (by decide)) .empty (GtidSet.eq_ok_of_toOption (by decide +kernel))
    (GtidSet.eq_ok_of_toOption (by decide +kernel)) rfl).1
  revert hsubset
  decide +kernel

end Harness

end DbGuard
