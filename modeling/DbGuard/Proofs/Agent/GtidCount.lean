import DbGuard.Agent.GtidCount
import DbGuard.Proofs.GtidSpelling
import Mathlib.Algebra.BigOperators.Group.Finset.Basic

/-!
# `DbGuard.Proofs.Agent.GtidCount`: when the fallback counts what `GtidSet` counts

The fallback counts mention by mention: for every interval of the first text that it reads, the
numbers that no interval of the second text under the same spelling of the key has
(`localCount_of_readable`). `GtidSet` counts transaction by transaction. `sum_card_uncovered`
turns the one into the other, and `times` and `want` are how often a transaction is counted and
how often it should be.
-/

set_option autoImplicit false

namespace DbGuard

namespace GtidCount

open GtidSet (Mention)

/-! ### Intervals -/

/-- The numbers of an interval that a list of intervals leaves. -/
noncomputable def left (bs : List (Int × Int)) (p : Int × Int) : Finset Int :=
  (Finset.Icc p.1 p.2).filter fun n => ¬ Interval.Mem n bs

/-- Cutting one interval out of a piece splits what is left of the piece. -/
theorem sum_left_cutPiece {b p : Int × Int} (hb : b.1 ≤ b.2) (bs : List (Int × Int)) :
    ((cutPiece b p).map fun q => (left bs q).card).sum = (left (b :: bs) p).card := by
  unfold cutPiece
  split
  -- The two do not meet, and the piece stays as it is.
  · rename_i hapart
    have heq : left (b :: bs) p = left bs p := by
      refine Finset.filter_congr fun n hn => ?_
      have hn' := Finset.mem_Icc.mp hn
      rw [Interval.mem_cons]
      constructor
      · exact fun h h' => h (.inr h')
      · rintro h (h' | h')
        · omega
        · exact h h'
    rw [heq]
    simp
  -- What is left of the piece lies on the two sides of the cut.
  · rename_i hmeet
    have hlow : left bs (p.1, b.1 - 1) ∪ left bs (b.2 + 1, p.2) = left (b :: bs) p := by
      ext n
      simp only [left, Finset.mem_union, Finset.mem_filter, Finset.mem_Icc, Interval.mem_cons]
      constructor
      · rintro (⟨hn, hno⟩ | ⟨hn, hno⟩)
        · refine ⟨by omega, ?_⟩
          rintro (h | h)
          · omega
          · exact hno h
        · refine ⟨by omega, ?_⟩
          rintro (h | h)
          · omega
          · exact hno h
      · rintro ⟨hn, hno⟩
        by_cases hlt : n < b.1
        · exact .inl ⟨by omega, fun h => hno (.inr h)⟩
        · have hgt : b.2 < n := by
            by_contra hle
            exact hno (.inl (by omega))
          exact .inr ⟨by omega, fun h => hno (.inr h)⟩
    -- No number is on both sides.
    have hdisj : Disjoint (left bs (p.1, b.1 - 1)) (left bs (b.2 + 1, p.2)) := by
      refine Finset.disjoint_left.mpr fun n hn hn' => ?_
      have h1 := Finset.mem_Icc.mp (Finset.mem_filter.mp hn).1
      have h2 := Finset.mem_Icc.mp (Finset.mem_filter.mp hn').1
      simp only at h1 h2
      omega
    have hempty : ∀ q : Int × Int, q.2 < q.1 → (left bs q).card = 0 := by
      intro q hq
      rw [left, Finset.Icc_eq_empty (by omega)]
      rfl
    rw [← hlow, Finset.card_union_of_disjoint hdisj, List.map_append, List.sum_append]
    -- A side that is empty is not kept and counts nothing.
    refine congrArg₂ (· + ·) ?_ ?_
    · split
      · simp
      · rw [hempty (p.1, b.1 - 1) (by simp only; omega)]
        rfl
    · split
      · simp
      · rw [hempty (b.2 + 1, p.2) (by simp only; omega)]
        rfl

/-- A cut leaves valid pieces. -/
theorem valid_cutPiece {b p : Int × Int} (hp : p.1 ≤ p.2) : Interval.Valid (cutPiece b p) := by
  unfold cutPiece
  split
  · exact (Interval.valid_cons _ _).mpr ⟨hp, Interval.valid_nil⟩
  · refine Interval.Valid.append ?_ ?_
    · split
      · exact (Interval.valid_cons _ _).mpr ⟨by simp only; omega, Interval.valid_nil⟩
      · exact Interval.valid_nil
    · split
      · exact (Interval.valid_cons _ _).mpr ⟨by simp only; omega, Interval.valid_nil⟩
      · exact Interval.valid_nil

/-- The pieces count what the second list leaves of them. -/
theorem sum_pieces :
    ∀ (bs ps : List (Int × Int)), Interval.Valid bs → Interval.Valid ps →
      ((bs.foldl (fun pieces b => pieces.flatMap (cutPiece b)) ps).map
        fun p => p.2 - p.1 + 1).sum = (((ps.map fun p => (left bs p).card).sum : ℕ) : Int) := by
  intro bs
  -- The induction is on the cuts; with none left, the pieces are counted as they are.
  induction bs with
  | nil =>
      intro ps _ hps
      rw [List.foldl_nil]
      induction ps with
      | nil => rfl
      | cons p ps ih =>
          have hp := (Interval.valid_cons _ _).mp hps
          have hcard : (left [] p).card = p.2 + 1 - p.1 := by
            have hall : left [] p = Finset.Icc p.1 p.2 :=
              Finset.filter_true_of_mem fun n _ => Interval.not_mem_nil n
            rw [hall, Int.card_Icc]
            omega
          rw [List.map_cons, List.sum_cons, List.map_cons, List.sum_cons, ih hp.2, Nat.cast_add,
            hcard]
          omega
  | cons b bs ih =>
      intro ps hbs hps
      have hb := (Interval.valid_cons _ _).mp hbs
      have hvalid : Interval.Valid (ps.flatMap (cutPiece b)) := by
        intro q hq
        obtain ⟨p, hp, hq⟩ := List.mem_flatMap.mp hq
        exact valid_cutPiece (hps p hp) q hq
      rw [List.foldl_cons, ih _ hb.2 hvalid, Nat.cast_inj]
      -- One cut goes piece by piece.
      clear hvalid hps ih
      induction ps with
      | nil => rfl
      | cons p ps ih =>
          rw [List.flatMap_cons, List.map_append, List.sum_append, ih,
            sum_left_cutPiece hb.1 bs, List.map_cons, List.sum_cons]

/-- `_interval_count` counts, for each interval on its own, what the second list leaves. -/
theorem intervalCount_eq {as bs : List (Int × Int)} (ha : Interval.Valid as)
    (hb : Interval.Valid bs) :
    intervalCount as bs = (((as.map fun p => (left bs p).card).sum : ℕ) : Int) := by
  unfold intervalCount
  induction as with
  | nil => rfl
  | cons p as ih =>
      have hp := (Interval.valid_cons _ _).mp ha
      have hone := sum_pieces bs [p] hb ((Interval.valid_cons _ _).mpr ⟨hp.1, Interval.valid_nil⟩)
      rw [List.map_cons, List.sum_cons, ih hp.2, hone]
      simp

/-! ### The local parser -/

/-- The parts of a text as the local parser cuts it. -/
def rawParts (text : String) : List (List Char) :=
  (((text.toList.filter (· ≠ '\n')).splitOn ',').map Py.strip).filter (· ≠ [])

/-- The intervals of a text. A tag is spelled in lower case. -/
def mentions (text : String) : List Mention := GtidSet.mentions Py.lower (rawParts text)

/-- `int` reads the bounds of every field that starts with a digit as they are written. -/
def Readable (text : String) : Prop :=
  ∀ raw ∈ rawParts text, ∀ f ∈ (raw.splitOn ':').tail, isTag f = false →
    (readBounds f).isSome = true

instance (text : String) : Decidable (Readable text) :=
  inferInstanceAs (Decidable (∀ raw ∈ _, ∀ f ∈ _, _ → _))

/-- Without white space these are the parts that `GtidSet.parse` reads. -/
theorem map_rawParts (text : String) :
    (rawParts text).map Py.dropSpaces = GtidSet.parts text := by
  have hcomma : (!Py.isSpace ',') = true := by decide
  have hline : Py.dropSpaces (text.toList.filter (· ≠ '\n')) = Py.dropSpaces text.toList := by
    rw [Py.dropSpaces, List.filter_filter]
    refine List.filter_congr fun c _ => ?_
    by_cases hc : c = '\n'
    · subst hc
      decide
    · simp [hc]
  have hcut := Py.splitOn_filter (p := fun c => !Py.isSpace c) hcomma
    (text.toList.filter (· ≠ '\n'))
  rw [GtidSet.parts, ← hline, Py.dropSpaces, hcut, rawParts]
  generalize (text.toList.filter (· ≠ '\n')).splitOn ',' = raws
  induction raws with
  | nil => rfl
  | cons raw raws ih =>
      rw [List.map_cons, List.map_cons]
      by_cases hne : Py.strip raw = []
      · have hdrop : Py.dropSpaces raw = [] := (Py.strip_eq_nil raw).mp hne
        rw [List.filter_cons_of_neg (by simpa using hne),
          List.filter_cons_of_neg (by simpa [Py.dropSpaces] using hdrop)]
        exact ih
      · have hdrop : Py.dropSpaces raw ≠ [] := fun h => hne ((Py.strip_eq_nil raw).mpr h)
        rw [List.filter_cons_of_pos (by simpa using hne),
          List.filter_cons_of_pos (by simpa [Py.dropSpaces] using hdrop), List.map_cons,
          Py.dropSpaces_strip, ih]
        rfl

/-- A field that the local parser reads as an interval has the bounds that `GtidSet` reads. -/
theorem readBounds_eq {f : List Char} {iv iv' : Int × Int}
    (h : GtidSet.fieldOf (Py.dropSpaces f) = some (.interval iv)) (hb : readBounds f = some iv') :
    iv' = iv := by
  obtain ⟨-, hle, hread⟩ := GtidSet.interval_of_fieldOf h
  -- Both readers take the same two bounds; white space is all that stands between them.
  obtain ⟨hlo, hhi, -⟩ := (GtidSet.readInterval_ok_iff _ _).mp hread
  obtain ⟨l, hl, hrest⟩ := Option.bind_eq_some_iff.mp hb
  obtain ⟨h', hh, rfl⟩ := Option.map_eq_some_iff.mp hrest
  have hdash : Py.isSpace '-' = false := by decide
  -- The lower bound is what stands before the dash.
  have hfirst : (GtidSet.bounds (Py.dropSpaces f)).1 = Py.dropSpaces (f.takeWhile (· ≠ '-')) := by
    rw [GtidSet.bounds]
    split
    · exact Py.takeWhile_dropSpaces hdash f
    · rename_i hno
      have hself : f.takeWhile (· ≠ '-') = f := List.takeWhile_eq_self_iff.mpr fun c hc => by
        have hne : c ≠ '-' := fun heq => hno ((Py.mem_dropSpaces_iff hdash f).mpr (heq ▸ hc))
        simpa using hne
      rw [hself]
  have hlow : l = iv.1 := by
    rw [hfirst, Py.int_dropSpaces hl] at hlo
    exact Option.some.inj hlo
  have hhigh : h' = iv.2 := by
    -- The upper bound is what stands behind it.
    by_cases hmem : '-' ∈ f
    · have hsecond : (GtidSet.bounds (Py.dropSpaces f)).2 =
          Py.dropSpaces ((f.dropWhile (· ≠ '-')).drop 1) := by
        rw [GtidSet.bounds, if_pos ((Py.mem_dropSpaces_iff hdash f).mpr hmem)]
        exact Py.dropWhile_dropSpaces hdash f
      rw [hsecond] at hhi
      split at hh
      · rename_i hnil
        rw [hnil] at hhi
        cases hhi
      · rw [Py.int_dropSpaces hh] at hhi
        exact Option.some.inj hhi
    · -- without a dash both bounds are the field
      have hno : '-' ∉ Py.dropSpaces f := fun h => hmem ((Py.mem_dropSpaces_iff hdash f).mp h)
      have hnil : (f.dropWhile (· ≠ '-')).drop 1 = [] := by
        have hall : f.dropWhile (· ≠ '-') = [] := List.dropWhile_eq_nil_iff.mpr fun c hc => by
          have hne : c ≠ '-' := fun heq => hmem (heq ▸ hc)
          simpa using hne
        rw [hall]
        rfl
      have hboth : (GtidSet.bounds (Py.dropSpaces f)).2 = (GtidSet.bounds (Py.dropSpaces f)).1 := by
        rw [GtidSet.bounds, if_neg hno]
      rw [if_pos hnil, hl] at hh
      rw [hboth, hlo] at hhi
      rw [← Option.some.inj hh, ← Option.some.inj hhi]
      exact hlow
  rw [hlow, hhigh]

/-- A field that `GtidSet` reads is a tag to the local parser unless it starts with a digit. -/
theorem isTag_eq {f : List Char} {fd : GtidSet.Field}
    (h : GtidSet.fieldOf (Py.dropSpaces f) = some fd) : isTag f = !GtidSet.startsFlush f := by
  cases f with
  | nil => cases h
  | cons c rest => rfl

/-- White space in front does not change where a field flushes. -/
theorem startsFlush_dropSpaces {f : List Char} (h : GtidSet.startsFlush f = true) :
    GtidSet.startsFlush (Py.dropSpaces f) = true := by
  cases f with
  | nil => cases h
  | cons c rest =>
      have hc : Py.isSpace c = false := Py.not_isSpace_of_digit h
      have hdrop : Py.dropSpaces (c :: rest) = c :: Py.dropSpaces rest :=
        List.filter_cons_of_pos (by simp [hc])
      rw [hdrop]
      exact h

/-- The intervals that the local parser reads, with their keys. -/
def flushPairs (ms : List Mention) : List (List Char × (Int × Int)) :=
  (ms.filter fun m => m.flush).map fun m => (m.spelled, m.iv)

/-- What the parser has filled: a dict with these pairs and no key without one. -/
structure Filled (out : Dict) (pairs : List (List Char × (Int × Int))) : Prop where
  perm : out.pairs.Perm pairs
  nonempty : ∀ kv ∈ out.entries, kv.2 ≠ []

/-- One more interval is filled in. -/
theorem Filled.add {out : Dict} {pairs : List (List Char × (Int × Int))} (h : Filled out pairs)
    (k : List Char) (iv : Int × Int) : Filled (out.add k iv) ((k, iv) :: pairs) where
  perm := Grouped.perm_pairs_add.trans (h.perm.cons _)
  nonempty := Grouped.nonempty_add h.nonempty

/-- The order in which they are filled in does not matter. -/
theorem Filled.of_perm {out : Dict} {pairs pairs' : List (List Char × (Int × Int))}
    (h : Filled out pairs) (hp : pairs.Perm pairs') : Filled out pairs' :=
  ⟨h.perm.trans hp, h.nonempty⟩

/-- The loop over the fields of a part puts in the intervals that start with a digit. -/
theorem foldlM_readField (head uuid : List Char) :
    ∀ (fields : List (List Char)) (fs : List GtidSet.Field) (spelled tag : List Char)
      (out : Dict) (pairs : List (List Char × (Int × Int))),
      List.Forall₂ (fun f fd => GtidSet.fieldOf (Py.dropSpaces f) = some fd) fields fs →
        (∀ f ∈ fields, isTag f = false → (readBounds f).isSome = true) → Filled out pairs →
          ∃ st, fields.foldlM (readField (Py.lower head)) (out, spelled) = some st ∧
            Filled st.1
              (flushPairs (GtidSet.mentionsFrom Py.lower head uuid spelled tag fields) ++ pairs) := by
  intro fields fs spelled tag out pairs h
  induction h generalizing spelled tag out pairs with
  | nil => exact fun _ hout => ⟨_, rfl, hout⟩
  | @cons f fd fields fs hf _ ih =>
      intro hread hout
      have hrest : ∀ f ∈ fields, isTag f = false → (readBounds f).isSome = true :=
        fun f' hf' => hread f' (List.mem_cons_of_mem _ hf')
      have htag := isTag_eq hf
      rw [List.foldlM_cons, GtidSet.mentionsFrom, hf]
      cases fd with
      | interval iv =>
          cases hflush : GtidSet.startsFlush f with
          | true =>
              rw [hflush] at htag
              obtain ⟨iv', hiv'⟩ := Option.isSome_iff_exists.mp
                (hread f List.mem_cons_self htag)
              obtain rfl := readBounds_eq hf hiv'
              have hstep : readField (Py.lower head) (out, spelled) f =
                  some (out.add (keyText (Py.lower head) spelled) iv', spelled) := by
                simp only [readField, htag, hiv']
                rfl
              obtain ⟨st, hst, hfill⟩ := ih spelled tag _ _ hrest
                (hout.add (keyText (Py.lower head) spelled) iv')
              rw [hstep]
              exact ⟨st, hst, hfill.of_perm List.perm_middle⟩
          | false =>
              -- White space in front: the parser takes the number for a tag.
              rw [hflush] at htag
              have hstep : readField (Py.lower head) (out, spelled) f =
                  some (out, Py.lower f) := by
                simp only [readField, htag]
                rfl
              obtain ⟨st, hst, hfill⟩ := ih (Py.lower f) tag out pairs hrest hout
              rw [hstep]
              exact ⟨st, hst, hfill⟩
      | tag t =>
          have hflush : GtidSet.startsFlush f = false := by
            by_contra hne
            have hstart := startsFlush_dropSpaces (Bool.not_eq_false _ ▸ hne)
            rw [(GtidSet.tag_of_fieldOf hf).1] at hstart
            cases hstart
          rw [hflush] at htag
          have hstep : readField (Py.lower head) (out, spelled) f = some (out, Py.lower f) := by
            simp only [readField, htag]
            rfl
          obtain ⟨st, hst, hfill⟩ := ih (Py.lower f) t out pairs hrest hout
          rw [hstep]
          exact ⟨st, hst, hfill⟩

/-- A field that was read has readable bounds, or is a tag. -/
theorem isSome_of_foldlM_readField (sid : List Char) :
    ∀ (fields : List (List Char)) (st st' : Dict × List Char),
      fields.foldlM (readField sid) st = some st' →
        ∀ f ∈ fields, isTag f = false → (readBounds f).isSome = true := by
  intro fields
  induction fields with
  | nil =>
      intro st st' _ f hf
      cases hf
  | cons f fields ih =>
      intro st st' h f' hf'
      rw [List.foldlM_cons] at h
      obtain ⟨st₁, hst₁, h⟩ := Option.bind_eq_some_iff.mp h
      rcases List.mem_cons.mp hf' with rfl | hf'
      · intro htag
        simp only [readField, htag] at hst₁
        obtain ⟨iv, hiv, -⟩ := Option.map_eq_some_iff.mp hst₁
        rw [hiv]
        rfl
      · exact ih st₁ st' h f' hf'

/-- The pairs of two texts come one behind the other. -/
theorem flushPairs_append (ms ms' : List Mention) :
    flushPairs (ms ++ ms') = flushPairs ms ++ flushPairs ms' := by
  rw [flushPairs, List.filter_append, List.map_append]
  rfl

/-- The parts of a list of raw ones. -/
def stripped (raws : List (List Char)) : List (List Char) :=
  (raws.map Py.strip).filter (· ≠ [])

/-- A part of white space only is dropped. -/
theorem stripped_cons (raw : List Char) (raws : List (List Char)) :
    stripped (raw :: raws) =
      if Py.strip raw = [] then stripped raws else Py.strip raw :: stripped raws := by
  rw [stripped, List.map_cons]
  split
  · rename_i h
    rw [List.filter_cons_of_neg (by simpa using h)]
    rfl
  · rename_i h
    rw [List.filter_cons_of_pos (by simpa using h)]
    rfl

/-- One part puts in its intervals. -/
theorem readPart_of_partOf {raw : List Char} {p : GtidSet.Part}
    (hp : GtidSet.PartOf (Py.dropSpaces (Py.strip raw)) p) (hne : Py.strip raw ≠ [])
    (h : ∀ f ∈ ((Py.strip raw).splitOn ':').tail, isTag f = false → (readBounds f).isSome = true)
    {out : Dict} {pairs : List (List Char × (Int × Int))} (hout : Filled out pairs) :
    ∃ out', readPart out raw = some out' ∧
      Filled out' (flushPairs (GtidSet.partMentions Py.lower (Py.strip raw)) ++ pairs) := by
  obtain ⟨head, fields, hsplit, huuid, hfields⟩ := GtidSet.partOf_raw hp
  rw [hsplit] at h
  obtain ⟨st, hst, hfill⟩ := foldlM_readField head p.1 fields p.2 [] [] out pairs hfields h hout
  refine ⟨st.1, ?_, ?_⟩
  · simp only [readPart]
    rw [if_neg hne, hsplit]
    dsimp only
    rw [hst]
    rfl
  · rw [GtidSet.partMentions, hsplit]
    dsimp only
    rw [huuid]
    exact hfill

/-- The loop over the parts puts in the intervals of all parts. -/
theorem foldlM_readPart :
    ∀ (raws : List (List Char)) (out : Dict) (pairs : List (List Char × (Int × Int))),
      (∀ raw ∈ stripped raws, ∃ p, GtidSet.PartOf (Py.dropSpaces raw) p) →
        (∀ raw ∈ stripped raws, ∀ f ∈ (raw.splitOn ':').tail, isTag f = false →
          (readBounds f).isSome = true) → Filled out pairs →
            ∃ out', raws.foldlM readPart out = some out' ∧
              Filled out' (flushPairs (GtidSet.mentions Py.lower (stripped raws)) ++ pairs) := by
  intro raws
  induction raws with
  | nil => exact fun out pairs _ _ hout => ⟨out, rfl, hout⟩
  | cons raw raws ih =>
      intro out pairs hparts hread hout
      rw [stripped_cons] at hparts hread
      rw [stripped_cons, List.foldlM_cons]
      -- A part of white space is skipped by both readers.
      by_cases hne : Py.strip raw = []
      · rw [if_pos hne] at hparts hread
        have hskip : readPart out raw = some out := by
          simp only [readPart]
          rw [if_pos hne]
        rw [hskip, if_pos hne]
        exact ih out pairs hparts hread hout
      · rw [if_neg hne] at hparts hread
        obtain ⟨p, hp⟩ := hparts _ List.mem_cons_self
        obtain ⟨out₁, hout₁, hfill₁⟩ :=
          readPart_of_partOf hp hne (hread _ List.mem_cons_self) hout
        obtain ⟨out', hout', hfill'⟩ := ih out₁ _
          (fun raw' h' => hparts raw' (List.mem_cons_of_mem _ h'))
          (fun raw' h' => hread raw' (List.mem_cons_of_mem _ h')) hfill₁
        rw [hout₁, if_neg hne]
        refine ⟨out', hout', hfill'.of_perm ?_⟩
        have hcons : GtidSet.mentions Py.lower (Py.strip raw :: stripped raws) =
            GtidSet.partMentions Py.lower (Py.strip raw) ++
              GtidSet.mentions Py.lower (stripped raws) := List.flatMap_cons ..
        rw [hcons, flushPairs_append, ← List.append_assoc]
        exact List.perm_append_comm.append_right pairs

/-- So it is of every part of a text. -/
theorem isSome_of_foldlM_readPart :
    ∀ (raws : List (List Char)) (out out' : Dict), raws.foldlM readPart out = some out' →
      ∀ raw ∈ stripped raws, ∀ f ∈ (raw.splitOn ':').tail, isTag f = false →
        (readBounds f).isSome = true := by
  intro raws
  induction raws with
  | nil =>
      intro out out' _ raw hraw
      cases hraw
  | cons raw raws ih =>
      intro out out' h raw' hraw'
      rw [List.foldlM_cons] at h
      obtain ⟨out₁, hout₁, h⟩ := Option.bind_eq_some_iff.mp h
      rw [stripped_cons] at hraw'
      split at hraw'
      · exact ih out₁ out' h raw' hraw'
      · rename_i hne
        rcases List.mem_cons.mp hraw' with rfl | hraw'
        · simp only [readPart] at hout₁
          rw [if_neg hne] at hout₁
          obtain ⟨head, fields, hsplit⟩ :=
            List.exists_cons_of_ne_nil (List.splitOn_ne_nil ':' (Py.strip raw))
          rw [hsplit] at hout₁ ⊢
          obtain ⟨st, hst, -⟩ := Option.map_eq_some_iff.mp hout₁
          exact isSome_of_foldlM_readField _ fields _ st hst
        · exact ih out₁ out' h raw' hraw'

/-- A text that `GtidSet` accepts is read by the local parser if it is readable. -/
theorem parse_of_readable {text : String} {s : GtidSet} (hs : GtidSet.parse text = .ok s)
    (h : Readable text) : ∃ out, parse text = some out ∧ Filled out (flushPairs (mentions text)) := by
  have hparts : ∀ raw ∈ rawParts text, ∃ p, GtidSet.PartOf (Py.dropSpaces raw) p := by
    intro raw hraw
    refine (GtidSet.parse_ok_iff text).mp ⟨s, hs⟩ _ ?_
    rw [← map_rawParts]
    exact List.mem_map.mpr ⟨raw, hraw, rfl⟩
  have hempty : Filled ({} : Dict) [] := ⟨.nil, by simp⟩
  obtain ⟨out, hout, hfill⟩ := foldlM_readPart _ _ _ hparts h hempty
  rw [List.append_nil] at hfill
  exact ⟨out, hout, hfill⟩

/-- A text that was parsed is readable. -/
theorem readable_of_parse {text : String} {out : Dict} (h : parse text = some out) :
    Readable text :=
  isSome_of_foldlM_readPart _ _ _ h

/-! ### Counting -/

/-- The second text writes the number under the key of the mention, as the mention spells it. -/
def Covered (b : String) (m : Mention) (n : Int) : Prop :=
  ∃ m' ∈ mentions b, m'.flush = true ∧ m'.spelled = m.spelled ∧ m'.iv.1 ≤ n ∧ n ≤ m'.iv.2

instance (b : String) (m : Mention) (n : Int) : Decidable (Covered b m n) :=
  inferInstanceAs (Decidable (∃ m' ∈ mentions b, _ ∧ _ ∧ _ ∧ _))

/-- The numbers of a mention that the second text does not cover. -/
noncomputable def uncovered (b : String) (m : Mention) : Finset Int :=
  (Finset.Icc m.iv.1 m.iv.2).filter fun n => ¬ Covered b m n

/-- What the dict of the second text leaves of a mention. -/
theorem left_get {b : String} {pb : Dict} (h : Filled pb (flushPairs (mentions b))) (m : Mention) :
    left (pb.get m.spelled) m.iv = uncovered b m := by
  refine Finset.filter_congr fun n _ => not_congr ?_
  have hget : ∀ iv, iv ∈ pb.get m.spelled ↔
      ∃ m' ∈ mentions b, m'.flush = true ∧ m'.spelled = m.spelled ∧ m'.iv = iv := by
    intro iv
    rw [Grouped.mem_get, h.perm.mem_iff, flushPairs, List.mem_map]
    constructor
    · rintro ⟨m', hm', heq⟩
      obtain ⟨hin, hflush⟩ := List.mem_filter.mp hm'
      exact ⟨m', hin, hflush, (Prod.mk.inj heq).1, (Prod.mk.inj heq).2⟩
    · rintro ⟨m', hin, hflush, hsp, hiv⟩
      exact ⟨m', List.mem_filter.mpr ⟨hin, hflush⟩, Prod.ext hsp hiv⟩
  constructor
  · rintro ⟨iv, hiv, hn⟩
    obtain ⟨m', hin, hflush, hsp, rfl⟩ := (hget iv).mp hiv
    exact ⟨m', hin, hflush, hsp, hn⟩
  · rintro ⟨m', hin, hflush, hsp, hn⟩
    exact ⟨m'.iv, (hget _).mpr ⟨m', hin, hflush, hsp, rfl⟩, hn⟩

/-- The filled intervals are valid. -/
theorem Filled.valid {text : String} {out : Dict} (h : Filled out (flushPairs (mentions text))) :
    ∀ x ∈ out.pairs, x.2.1 ≤ x.2.2 := by
  intro x hx
  obtain ⟨m, hm, rfl⟩ := List.mem_map.mp (h.perm.mem_iff.mp hx)
  exact (GtidSet.inRange_mentions (List.mem_filter.mp hm).1).2.1

/-- The sum over the entries of a dict is a sum over its pairs. -/
theorem sum_entries {K V : Type} (c : K → V → Nat) (entries : List (K × List V)) :
    (entries.map fun kv => (kv.2.map (c kv.1)).sum).sum =
      ((entries.flatMap fun kv => kv.2.map (kv.1, ·)).map fun x => c x.1 x.2).sum := by
  induction entries with
  | nil => rfl
  | cons kv entries ih =>
      rw [List.map_cons, List.sum_cons, ih, List.flatMap_cons, List.map_append, List.sum_append,
        List.map_map]
      rfl

/-- A map of successes succeeds. -/
theorem mapM_eq_some {α β : Type} {f : α → Option β} {g : α → β} :
    ∀ {l : List α}, (∀ x ∈ l, f x = some (g x)) → l.mapM f = some (l.map g) := by
  intro l
  induction l with
  | nil => exact fun _ => rfl
  | cons x l ih =>
      intro h
      rw [List.mapM_cons, h x List.mem_cons_self, ih fun y hy => h y (List.mem_cons_of_mem _ hy)]
      rfl

/-- Casts go through the sum. -/
theorem sum_cast (l : List ℕ) : (l.map fun n : ℕ => (n : Int)).sum = (l.sum : Int) := by
  induction l with
  | nil => rfl
  | cons n l ih => rw [List.map_cons, List.sum_cons, List.sum_cons, ih, Nat.cast_add]

/-- The mentions of a text that the local parser reads. -/
def flushed (text : String) : List Mention := (mentions text).filter fun m => m.flush

/-- What the local computation returns when both texts are readable. -/
theorem localCount_of_both {a b : String} {pa pb : Dict}
    (hpa : parse a = some pa) (hfa : Filled pa (flushPairs (mentions a)))
    (hpb : parse b = some pb) (hfb : Filled pb (flushPairs (mentions b))) :
    localCount a b = some ((((flushed a).map fun m => (uncovered b m).card).sum : ℕ) : Int) := by
  have hcount : ∀ kv ∈ pa.entries,
      (parse b).map (fun pb => intervalCount kv.2 (pb.get kv.1)) =
        some (((kv.2.map fun iv => (left (pb.get kv.1) iv).card).sum : ℕ) : Int) := by
    intro kv hkv
    rw [hpb]
    refine congrArg some (intervalCount_eq (fun iv hiv => ?_) fun iv hiv => ?_)
    · exact hfa.valid (kv.1, iv) (Grouped.mem_pairs.mpr ⟨kv, hkv, rfl, hiv⟩)
    · exact hfb.valid (kv.1, iv) (Grouped.mem_get.mp hiv)
  have hsum : (pa.entries.map fun kv =>
      (kv.2.map fun iv => (left (pb.get kv.1) iv).card).sum).sum =
        ((flushed a).map fun m => (uncovered b m).card).sum := by
    rw [sum_entries fun k iv => (left (pb.get k) iv).card]
    have hperm := hfa.perm.map fun x => (left (pb.get x.1) x.2).card
    refine hperm.sum_eq.trans ?_
    rw [flushPairs, List.map_map]
    refine congrArg List.sum (List.map_congr_left fun m _ => ?_)
    show (left (pb.get m.spelled) m.iv).card = _
    rw [left_get hfb]
  unfold localCount
  rw [hpa, Option.bind_some, mapM_eq_some hcount, Option.map_some, ← hsum, ← sum_cast,
    List.map_map]
  rfl

/-- The local computation returns a number if the first text is readable and the second is so
too, or is not looked at. -/
theorem localCount_of_readable {a b : String} {A B : GtidSet} (ha : GtidSet.parse a = .ok A)
    (hb : GtidSet.parse b = .ok B) (hra : Readable a) (hrb : Readable b ∨ flushed a = []) :
    localCount a b = some ((((flushed a).map fun m => (uncovered b m).card).sum : ℕ) : Int) := by
  obtain ⟨pa, hpa, hfa⟩ := parse_of_readable ha hra
  by_cases hread : Readable b
  · obtain ⟨pb, hpb, hfb⟩ := parse_of_readable hb hread
    exact localCount_of_both hpa hfa hpb hfb
  · have hnone := hrb.resolve_left hread
    have hpairs : pa.pairs = [] := by
      have hnil : flushPairs (mentions a) = [] := by
        show (flushed a).map _ = []
        rw [hnone]
        rfl
      exact List.perm_nil.mp (hnil ▸ hfa.perm)
    unfold localCount
    rw [hpa, Option.bind_some, (Grouped.entries_eq_nil hfa.nonempty).mpr hpairs, hnone]
    rfl

/-- Otherwise it raises. -/
theorem localCount_of_unreadable {a b : String} {A : GtidSet} (ha : GtidSet.parse a = .ok A)
    (h : ¬ (Readable a ∧ (Readable b ∨ flushed a = []))) : localCount a b = none := by
  cases hpa : parse a with
  | none =>
      unfold localCount
      rw [hpa]
      rfl
  | some pa =>
      have hra := readable_of_parse hpa
      obtain ⟨pa', hpa', hfa⟩ := parse_of_readable ha hra
      obtain rfl := Option.some.inj (hpa.symm.trans hpa')
      have hrb : ¬ Readable b := fun hrb => h ⟨hra, .inl hrb⟩
      have hpb : parse b = none := by
        cases hpb : parse b with
        | none => rfl
        | some pb => exact absurd (readable_of_parse hpb) hrb
      have hne : pa.entries ≠ [] := by
        intro hnil
        refine h ⟨hra, .inr ?_⟩
        have hpairs := (Grouped.entries_eq_nil hfa.nonempty).mp hnil
        have hperm : flushPairs (mentions a) = [] := List.nil_perm.mp (hpairs ▸ hfa.perm)
        exact List.map_eq_nil_iff.mp hperm
      obtain ⟨kv, rest, hcons⟩ := List.exists_cons_of_ne_nil hne
      unfold localCount
      rw [hpa, Option.bind_some, hcons, List.mapM_cons, hpb]
      rfl

/-! ### How often a transaction is counted -/

/-- How often the local computation counts a transaction. -/
def times (a b : String) (g : Gtid) : ℕ :=
  (flushed a).countP fun m => m.Names g ∧ ¬ Covered b m g.2

/-- How often it should. -/
def want (B : GtidSet) (g : Gtid) : ℕ := if g ∈ B then 0 else 1

/-- Counting mention by mention is counting transaction by transaction. -/
theorem sum_card_uncovered {b : String} {U : Finset Gtid} :
    ∀ {ms : List Mention}, (∀ m ∈ ms, ∀ g, m.Names g → g ∈ U) →
      (ms.map fun m => (uncovered b m).card).sum =
        ∑ g ∈ U, ms.countP fun m => m.Names g ∧ ¬ Covered b m g.2 := by
  intro ms
  induction ms with
  | nil =>
      intro _
      simp
  | cons m ms ih =>
      intro h
      have hone : (uncovered b m).card =
          (U.filter fun g => m.Names g ∧ ¬ Covered b m g.2).card := by
        have himage : (uncovered b m).image (fun n => (m.key, n)) =
            U.filter fun g => m.Names g ∧ ¬ Covered b m g.2 := by
          ext ⟨k, n⟩
          simp only [uncovered, Finset.mem_image, Finset.mem_filter, Finset.mem_Icc,
            Prod.mk.injEq]
          constructor
          · rintro ⟨n', ⟨hn, hno⟩, hk, rfl⟩
            exact ⟨h m List.mem_cons_self (k, n') ⟨hk, hn⟩, ⟨hk, hn⟩, hno⟩
          · rintro ⟨-, ⟨hk, hn⟩, hno⟩
            exact ⟨n, ⟨hn, hno⟩, hk, rfl⟩
        rw [← himage, Finset.card_image_of_injective _ (Prod.mk_right_injective m.key)]
      rw [List.map_cons, List.sum_cons, ih fun m' hm' => h m' (List.mem_cons_of_mem _ hm'), hone,
        Finset.card_filter, ← Finset.sum_add_distrib]
      refine Finset.sum_congr rfl fun g _ => ?_
      rw [List.countP_cons, Nat.add_comm]
      simp only [decide_eq_true_eq]

/-- The transactions of a set, as a finite set. -/
noncomputable def transactions (A : GtidSet) : Finset Gtid := A.finite_mem.toFinset

/-- The transactions of a set are its members. -/
theorem mem_transactions {A : GtidSet} {g : Gtid} : g ∈ transactions A ↔ g ∈ A := by
  rw [transactions, Set.Finite.mem_toFinset]
  rfl

/-- The count of a difference, transaction by transaction. -/
theorem count_subtract (A B : GtidSet) :
    (A.subtract B).count = ((∑ g ∈ transactions A, want B g : ℕ) : Int) := by
  have hset : {g | g ∈ A.subtract B} = ↑((transactions A).filter fun g => g ∉ B) := by
    ext g
    rw [Finset.mem_coe, Finset.mem_filter, mem_transactions]
    exact GtidSet.mem_subtract A B g
  rw [GtidSet.count_eq_ncard, hset, Set.ncard_coe_finset, Finset.card_filter]
  refine congrArg Nat.cast (Finset.sum_congr rfl fun g _ => ?_)
  rw [want]
  by_cases h : g ∈ B
  · rw [if_pos h, if_neg fun hno => hno h]
  · rw [if_neg h, if_pos h]

/-- What is counted too often is as much as what is not counted. -/
def Balanced (a b : String) (A B : GtidSet) : Prop :=
  ∑ g ∈ transactions A, (times a b g - want B g) = ∑ g ∈ transactions A, (want B g - times a b g)

/-- The numbers that the local computation looks at are readable. -/
def Reads (a b : String) : Prop := Readable a ∧ (Readable b ∨ flushed a = [])

/-- No number of the text has white space in front of it. -/
def Flush (text : String) : Prop := ∀ m ∈ mentions text, m.flush = true

instance (text : String) : Decidable (Flush text) :=
  inferInstanceAs (Decidable (∀ m ∈ mentions text, m.flush = true))

/-- Each transaction of the first text is written once in it, or else the second text has it and
spells its key like every mention of it in the first. -/
def Once (a b : String) (A B : GtidSet) : Prop :=
  ∀ g ∈ A, (g ∉ B → ((mentions a).countP fun m => m.Names g) = 1) ∧
    (g ∈ B → ∀ m ∈ mentions a, m.Names g → Covered b m g.2)

/-- Two sums are equal if the excesses on both sides are. -/
theorem sum_eq_iff_excess {U : Finset Gtid} (f h : Gtid → ℕ) :
    ∑ g ∈ U, f g = ∑ g ∈ U, h g ↔ ∑ g ∈ U, (f g - h g) = ∑ g ∈ U, (h g - f g) := by
  have hmax : ∑ g ∈ U, f g + ∑ g ∈ U, (h g - f g) = ∑ g ∈ U, h g + ∑ g ∈ U, (f g - h g) := by
    rw [← Finset.sum_add_distrib, ← Finset.sum_add_distrib]
    refine Finset.sum_congr rfl fun g _ => ?_
    omega
  omega

/-- What a mention names is in the parsed set. -/
theorem names_mem {a : String} {A : GtidSet} (ha : GtidSet.parse a = .ok A) {m : Mention}
    (hm : m ∈ mentions a) {g : Gtid} (hg : m.Names g) : g ∈ A :=
  (GtidSet.mem_iff_mentioned Py.lower ha (map_rawParts a) g).mpr ⟨m, hm, hg⟩

/-- The local count is right if it is a number and the errors in it cancel out. -/
theorem localCount_iff_balanced {a b : String} {A B : GtidSet} (ha : GtidSet.parse a = .ok A)
    (hb : GtidSet.parse b = .ok B) :
    localCount a b = some (A.subtract B).count ↔ Reads a b ∧ Balanced a b A B := by
  by_cases hr : Reads a b
  · have hmem : ∀ m ∈ flushed a, ∀ g, m.Names g → g ∈ transactions A :=
      fun m hm g hg => mem_transactions.mpr (names_mem ha (List.mem_filter.mp hm).1 hg)
    have hsum := sum_card_uncovered (b := b) hmem
    rw [localCount_of_readable ha hb hr.1 hr.2, hsum, count_subtract, Option.some_inj,
      Nat.cast_inj]
    rw [sum_eq_iff_excess, and_iff_right hr]
    exact Iff.rfl
  · rw [localCount_of_unreadable ha hr, iff_false_right fun h => hr h.1]
    simp

/-- Where no number has white space in front of it, nothing is missed, so the errors cancel out
only if there are none. -/
theorem balanced_iff_once {a b : String} {A B : GtidSet} (ha : GtidSet.parse a = .ok A)
    (hb : GtidSet.parse b = .ok B) (hfa : Flush a) (hfb : Flush b) :
    Balanced a b A B ↔ Once a b A B := by
  have hflushed : flushed a = mentions a := List.filter_eq_self.mpr hfa
  -- A covered mention of a transaction is a mention of it in the other text.
  have hcover : ∀ m ∈ mentions a, ∀ g, m.Names g → Covered b m g.2 → g ∈ B := by
    rintro m hm g hg ⟨m', hm', -, hsp, hn⟩
    have hkey := GtidSet.key_eq_of_spelled GtidSet.spells_lower hfb hfa hm' hm hsp
    exact names_mem hb hm' ⟨hkey.trans hg.1, hn⟩
  -- Outside the other set no mention is covered.
  have hnew : ∀ g, g ∉ B → times a b g = (mentions a).countP fun m => m.Names g := by
    intro g hg
    rw [times, hflushed]
    refine List.countP_congr fun m hm => ?_
    simp only [decide_eq_true_eq]
    exact ⟨fun h => h.1, fun h => ⟨h, fun hc => hg (hcover m hm g h hc)⟩⟩
  -- So no transaction of the first set is wanting, and the sums are equal only if each term is.
  have hmiss : ∀ g ∈ transactions A, want B g - times a b g = 0 := by
    intro g hg
    by_cases hgb : g ∈ B
    · rw [want, if_pos hgb, Nat.zero_sub]
    · obtain ⟨m, hm, hnames⟩ :=
        (GtidSet.mem_iff_mentioned Py.lower ha (map_rawParts a) g).mp (mem_transactions.mp hg)
      have hpos : 0 < (mentions a).countP fun m => m.Names g :=
        List.countP_pos_iff.mpr ⟨m, hm, by simpa using hnames⟩
      rw [want, if_neg hgb, hnew g hgb]
      omega
  rw [Balanced, Finset.sum_eq_zero hmiss, Finset.sum_eq_zero_iff]
  refine forall_congr' fun g => ?_
  rw [mem_transactions]
  refine imp_congr_right fun hg => ?_
  -- A transaction of both sets has to be covered in every mention, one of the first alone mentioned
  -- once.
  by_cases hgb : g ∈ B
  · rw [want, if_pos hgb, Nat.sub_zero, times, hflushed, List.countP_eq_zero]
    constructor
    · intro h
      refine ⟨fun hno => absurd hgb hno, fun _ m hm hnames => ?_⟩
      by_contra hc
      exact h m hm (by simpa using ⟨hnames, hc⟩)
    · rintro ⟨-, h⟩ m hm
      simpa using h hgb m hm
  · have hzero := hmiss g (mem_transactions.mpr hg)
    rw [want, if_neg hgb, hnew g hgb] at hzero ⊢
    constructor
    · intro h
      exact ⟨fun _ => by omega, fun h' => absurd h' hgb⟩
    · rintro ⟨h, -⟩
      have hone := h hgb
      omega

/-- The local computation returns the count of `GtidSet` if and only if the numbers are readable
and its errors cancel out. Without white space in front of a number that means: each
transaction that the second text lacks is written once in the first, and each one that it
has is spelled there as in the first. -/
theorem localCount_agrees (a b : String) (A B : GtidSet) (ha : GtidSet.parse a = .ok A)
    (hb : GtidSet.parse b = .ok B) :
    (localCount a b = some (A.subtract B).count ↔ Reads a b ∧ Balanced a b A B) ∧
      (Flush a → Flush b →
        (localCount a b = some (A.subtract B).count ↔ Reads a b ∧ Once a b A B)) := by
  refine ⟨localCount_iff_balanced ha hb, fun hfa hfb => ?_⟩
  rw [localCount_iff_balanced ha hb, balanced_iff_once ha hb hfa hfb]

/-- The counts of two sets with gaps. -/
theorem localCount_agrees_gaps : ∃ A B,
    GtidSet.parse "3e11fa47-71ca-11e1-9e33-c80aa9429562:1-10:15-20" = .ok A ∧
      GtidSet.parse "3e11fa47-71ca-11e1-9e33-c80aa9429562:3-4:16" = .ok B ∧
      Once "3e11fa47-71ca-11e1-9e33-c80aa9429562:1-10:15-20"
        "3e11fa47-71ca-11e1-9e33-c80aa9429562:3-4:16" A B := by
  obtain ⟨A, B, ha, hb, hcount⟩ : ∃ A B,
      GtidSet.parse "3e11fa47-71ca-11e1-9e33-c80aa9429562:1-10:15-20" = .ok A ∧
        GtidSet.parse "3e11fa47-71ca-11e1-9e33-c80aa9429562:3-4:16" = .ok B ∧
        localCount "3e11fa47-71ca-11e1-9e33-c80aa9429562:1-10:15-20"
          "3e11fa47-71ca-11e1-9e33-c80aa9429562:3-4:16" = some (A.subtract B).count := by
    refine ⟨.build [(("3e11fa47-71ca-11e1-9e33-c80aa9429562", ""), [(1, 10), (15, 20)])]
        (by decide) (by decide),
      .build [(("3e11fa47-71ca-11e1-9e33-c80aa9429562", ""), [(3, 4), (16, 16)])]
        (by decide) (by decide), GtidSet.eq_ok_of_toOption ?_, GtidSet.eq_ok_of_toOption ?_, ?_⟩
    · decide +kernel
    · decide +kernel
    · decide +kernel
  have hflush : Flush "3e11fa47-71ca-11e1-9e33-c80aa9429562:1-10:15-20" := by decide +kernel
  have hflush' : Flush "3e11fa47-71ca-11e1-9e33-c80aa9429562:3-4:16" := by decide +kernel
  have hagrees := (localCount_agrees _ _ A B ha hb).2 hflush hflush'
  exact ⟨A, B, ha, hb, (hagrees.mp hcount).2⟩

/-- Intervals that overlap are counted twice. -/
theorem overlap_counted_twice : ¬ ∀ (a b : String) (A B : GtidSet),
    GtidSet.parse a = .ok A → GtidSet.parse b = .ok B →
      localCount a b = some (A.subtract B).count := by
  intro h
  have hcount := h "3e11fa47-71ca-11e1-9e33-c80aa9429562:1-3:2-4" ""
    (.build [(("3e11fa47-71ca-11e1-9e33-c80aa9429562", ""), [(1, 4)])] (by decide) (by decide))
    .empty (GtidSet.eq_ok_of_toOption (by decide +kernel)) rfl
  revert hcount
  decide +kernel

end GtidCount

end DbGuard
