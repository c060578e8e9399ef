import DbGuard.Proofs.GtidExact

/-!
# `DbGuard.Proofs.GtidRoundTrip`: what is printed is read back

`Renders text s` says that a text is a rendering of a set: its comma-separated portions carry
canonical uuids, each with untagged pieces first and then pieces after their tags, the pieces
together are the intervals of the set, and letters are in either case with white space
anywhere. The printer (`toText`) makes one such rendering, and `text_round_trip` says that the
parser reads every rendering back as the set.
-/

set_option autoImplicit false

namespace DbGuard

namespace GtidSet

/-! ### Renderings -/

/-- `str(n)`. -/
def numeral (n : Int) : List Char := (toString n).toList

/-- A piece of an interval. A single number may be written `n` or `n-n`. -/
structure Piece where
  first : Int
  last : Int
  long : Bool

/-- A piece as it is written. -/
def Piece.text (p : Piece) : List Char :=
  if p.first = p.last ∧ p.long = false then numeral p.first
  else numeral p.first ++ '-' :: numeral p.last

/-- One comma-separated part: a uuid, its untagged pieces, and the pieces after each tag. -/
structure Portion where
  uuid : List Char
  untagged : List Piece
  tagged : List (List Char × List Piece)

/-- The fields behind the uuid: the pieces, and each tag before its own. -/
def Portion.fields (p : Portion) : List (List Char) :=
  p.untagged.map Piece.text ++ p.tagged.flatMap fun t => t.1 :: t.2.map Piece.text

/-- A portion as it is written, with colons in between. -/
def Portion.text (p : Portion) : List Char := [':'].intercalate (p.uuid :: p.fields)

/-- The portions in a row. -/
def render (ps : List Portion) : List Char := [','].intercalate (ps.map Portion.text)

/-- A uuid of 36 characters, in lower case and dashed. -/
def CanonicalUuid (u : List Char) : Prop := u.length = 36 ∧ uuidRe u = true

instance (u : List Char) : Decidable (CanonicalUuid u) := inferInstanceAs (Decidable (_ ∧ _))

/-- The piece is an interval that the constructor accepts. -/
def Piece.InRange (p : Piece) : Prop := 1 ≤ p.first ∧ p.first ≤ p.last ∧ p.last ≤ maxGno

/-- The uuid and the tags are canonical, the pieces are in range, and there is one. -/
structure Portion.WellFormed (p : Portion) : Prop where
  uuid : CanonicalUuid p.uuid
  untagged : ∀ piece ∈ p.untagged, piece.InRange
  tags : ∀ t ∈ p.tagged, tagRe t.1 = true
  tagged : ∀ t ∈ p.tagged, ∀ piece ∈ t.2, piece.InRange
  nonempty : p.untagged ≠ [] ∨ ∃ t ∈ p.tagged, t.2 ≠ []

/-- A transaction of a portion. -/
def Portion.Has (p : Portion) (g : Gtid) : Prop :=
  String.ofList p.uuid = g.1.1 ∧
    ((g.1.2 = "" ∧ ∃ piece ∈ p.untagged, piece.first ≤ g.2 ∧ g.2 ≤ piece.last) ∨
      ∃ t ∈ p.tagged, String.ofList t.1 = g.1.2 ∧
        ∃ piece ∈ t.2, piece.first ≤ g.2 ∧ g.2 ≤ piece.last)

/-- A rendering of a set: up to white space and the case of letters, portions whose
transactions are those of the set. -/
def Renders (text : String) (s : GtidSet) : Prop :=
  ∃ ps : List Portion, (∀ p ∈ ps, p.WellFormed) ∧
    (Py.dropSpaces text.toList).map Char.toLower = render ps ∧
    ∀ g, g ∈ s ↔ ∃ p ∈ ps, p.Has g

/-! ### The characters of a rendering -/

/-- The characters of a rendering: lower case, digits, and the signs in between. -/
abbrev Neat (c : Char) : Prop := 44 ≤ c.toNat ∧ c.toNat ≤ 122 ∧ ¬ (65 ≤ c.toNat ∧ c.toNat ≤ 90)

/-- A neat character has no upper case. -/
theorem Neat.toLower {c : Char} (h : Neat c) : c.toLower = c := by
  have hnat := Py.toNat_toLower c
  rw [if_neg h.2.2] at hnat
  exact Char.toNat_inj.mp hnat

/-- A neat character is no white space. -/
theorem Neat.not_isSpace {c : Char} (h : Neat c) : Py.isSpace c = false := by
  have hspaces : ∀ n ∈ Py.spaces, n ≤ 32 ∨ 0x85 ≤ n := by decide
  simp only [Py.isSpace, decide_eq_false_iff_not]
  intro hmem
  have hn := hspaces _ hmem
  have hle := h.1
  have hge := h.2.1
  omega

/-- A positive number is written in its digits. -/
theorem numeral_eq {n : Int} (h : 1 ≤ n) : numeral n = Nat.toDigits 10 n.toNat := by
  obtain ⟨k, rfl⟩ := Int.eq_ofNat_of_zero_le (show 0 ≤ n by omega)
  show (k.repr).toList = _
  rw [Nat.toList_repr]
  rfl

/-- So it is a numeral. -/
theorem numeral_isNumeral {n : Int} (h : 1 ≤ n) : Py.Numeral (numeral n) := by
  rw [numeral_eq h]
  exact ⟨Nat.toDigits_ne_nil, fun c hc => Nat.isDigit_of_mem_toDigits (by omega) (by omega) hc⟩

/-- The numeral says the number. -/
theorem number_numeral {n : Int} (h : 1 ≤ n) : number (numeral n) = n := by
  rw [number, numeral_eq h, Nat.ofDigitChars_ten_toDigits]
  omega

/-- It is short enough for `int`. -/
theorem length_numeral {n : Int} (h : 1 ≤ n) (hmax : n ≤ maxGno) :
    (numeral n).length ≤ Py.maxDigits := by
  have hlen : (Nat.toDigits 10 n.toNat).length ≤ 19 := by
    rw [Nat.length_toDigits_le_iff (by omega) (by omega)]
    have hgno : maxGno = 9223372036854775807 := by decide
    omega
  rw [numeral_eq h]
  exact le_trans hlen (by decide)

/-- A piece is an interval of the grammar, and not too long. -/
theorem Piece.InRange.text {p : Piece} (h : p.InRange) :
    IntervalText p.text (p.first, p.last) ∧ ¬ LongField p.text := by
  obtain ⟨hfirst, hle, hlast⟩ := h
  have hn := numeral_isNumeral hfirst
  have hn' := numeral_isNumeral (show 1 ≤ p.last by omega)
  have hlen := length_numeral hfirst (by omega)
  have hlen' := length_numeral (show 1 ≤ p.last by omega) hlast
  have hval := number_numeral hfirst
  have hval' := number_numeral (show 1 ≤ p.last by omega)
  rw [Piece.text]
  split
  · rename_i hsingle
    have hiv := IntervalText.single hn
    rw [hval] at hiv
    rw [← hsingle.1]
    refine ⟨hiv, ?_⟩
    rw [LongField, splitOn_single hn]
    simpa using hlen
  · have hiv := IntervalText.range hn hn'
    rw [hval, hval'] at hiv
    refine ⟨hiv, ?_⟩
    rw [LongField, splitOn_range hn hn']
    simpa using ⟨hlen, hlen'⟩

/-- A text whose lower case is an interval is that interval. -/
theorem eq_of_map_toLower {f f' : List Char} (h : f.map Char.toLower = f')
    (hf' : ∀ c ∈ f', c = '-' ∨ c.isDigit = true) : f = f' := by
  have hself : ∀ c ∈ f, c.toLower = c := by
    intro c hc
    have hmem : c.toLower ∈ f' := h ▸ List.mem_map_of_mem hc
    refine (Py.eq_of_toLower rfl ?_).symm
    rcases hf' _ hmem with hdash | hdigit
    · rw [hdash]
      decide
    · rw [Py.isDigit_iff] at hdigit
      omega
  have hid : f.map Char.toLower = f.map id := List.map_congr_left hself
  rw [← h, hid, List.map_id]

/-! ### Reading a portion -/

/-- What a piece says. -/
def Piece.field (p : Piece) : Field := .interval (p.first, p.last)

/-- What the fields of a portion say. -/
def Portion.meaning (p : Portion) : List Field :=
  p.untagged.map Piece.field ++ p.tagged.flatMap fun t => .tag t.1 :: t.2.map Piece.field

/-- Whatever has the lower case `low` is a field that says `fd`. -/
def Says (low : List Char) (fd : Field) : Prop :=
  ∀ f : List Char, f.map Char.toLower = low → FieldText f fd ∧ ¬ LongField f

/-- A piece in range says its interval. -/
theorem says_piece {p : Piece} (h : p.InRange) : Says p.text p.field := by
  intro f hf
  obtain ⟨hiv, hlong⟩ := h.text
  have heq : f = p.text := eq_of_map_toLower hf hiv.mem
  rw [heq]
  exact ⟨.interval hiv h.1 h.2.1 h.2.2, hlong⟩

/-- A canonical tag says itself. -/
theorem says_tag {t : List Char} (h : tagRe t = true) : Says t (.tag t) := by
  intro f hf
  have htext : TagText f := by
    rw [← tagRe_map_iff, hf]
    exact h
  have htag : FieldText f (.tag (f.map Char.toLower)) := .tag htext
  rw [hf] at htag
  exact ⟨htag, htext.not_long⟩

/-- The pieces say their intervals in turn. -/
theorem says_pieces {pieces : List Piece} (h : ∀ p ∈ pieces, p.InRange) :
    List.Forall₂ Says (pieces.map Piece.text) (pieces.map Piece.field) := by
  induction pieces with
  | nil => exact .nil
  | cons p pieces ih =>
      exact .cons (says_piece (h p List.mem_cons_self))
        (ih fun p' hp' => h p' (List.mem_cons_of_mem _ hp'))

/-- Tags and pieces say themselves in turn. -/
theorem says_tagged {tagged : List (List Char × List Piece)}
    (htags : ∀ t ∈ tagged, tagRe t.1 = true)
    (hpieces : ∀ t ∈ tagged, ∀ piece ∈ t.2, piece.InRange) :
    List.Forall₂ Says (tagged.flatMap fun t => t.1 :: t.2.map Piece.text)
      (tagged.flatMap fun t => .tag t.1 :: t.2.map Piece.field) := by
  induction tagged with
  | nil => exact .nil
  | cons t tagged ih =>
      rw [List.flatMap_cons, List.flatMap_cons]
      have hhead := says_tag (htags t List.mem_cons_self)
      have hrest := says_pieces (hpieces t List.mem_cons_self)
      exact List.rel_append (.cons hhead hrest)
        (ih (fun t' ht' => htags t' (List.mem_cons_of_mem _ ht'))
          fun t' ht' => hpieces t' (List.mem_cons_of_mem _ ht'))

/-- The fields of a portion say what it means. -/
theorem Portion.WellFormed.meaning {p : Portion} (h : p.WellFormed) :
    List.Forall₂ Says p.fields p.meaning :=
  List.rel_append (says_pieces h.untagged) (says_tagged h.tags h.tagged)

/-- A portion says an interval. -/
theorem Portion.WellFormed.isInterval {p : Portion} (h : p.WellFormed) :
    p.meaning.any Field.isInterval = true := by
  rw [List.any_eq_true]
  rcases h.nonempty with hne | ⟨t, ht, hne⟩
  · obtain ⟨piece, hpiece⟩ := List.exists_mem_of_ne_nil _ hne
    exact ⟨piece.field, List.mem_append_left _ (List.mem_map_of_mem hpiece), rfl⟩
  · obtain ⟨piece, hpiece⟩ := List.exists_mem_of_ne_nil _ hne
    refine ⟨piece.field, List.mem_append_right _ (List.mem_flatMap.mpr ⟨t, ht, ?_⟩), rfl⟩
    exact List.mem_cons_of_mem _ (List.mem_map_of_mem hpiece)

/-- A canonical uuid is a uuid of the grammar, with dashes. -/
theorem CanonicalUuid.uuidText {u : List Char} (h : CanonicalUuid u) :
    UuidText u ∧ '-' ∈ u := by
  obtain ⟨g⟩ := (uuidRe_iff u).mp h.2
  have hcount := g.count_dash
  have hlen := congrArg List.length g.spelled
  simp only [List.length_append, h.1, g.ha.1, g.hb.1, g.hc.1, g.hd.1, g.he.1] at hlen
  have h4 : u.count '-' = 4 := by omega
  exact ⟨g.uuidText (.inr h4), List.count_pos_iff.mp (by omega)⟩

/-- A head whose lower case is a canonical uuid is read as that uuid. -/
theorem canonicalUuid_eq {head u : List Char} (hu : CanonicalUuid u)
    (h : head.map Char.toLower = u) : canonicalUuid head = u := by
  obtain ⟨htext, hdash⟩ := hu.uuidText
  rw [← h] at htext hdash
  rw [htext.canonical, if_neg (by simpa using hdash), h]

/-- No field and no uuid of a portion has a colon or a comma in it. -/
theorem Portion.WellFormed.no_separator {p : Portion} (h : p.WellFormed) {c : Char}
    (hc : c = ':' ∨ c = ',') : ∀ l ∈ p.uuid :: p.fields, c ∉ l := by
  have hpiece : ∀ piece : Piece, piece.InRange → c ∉ piece.text := by
    intro piece hpiece hmem
    rcases hpiece.text.1.mem c hmem with h | h
    · rcases hc with rfl | rfl <;> exact absurd h (by decide)
    · rcases hc with rfl | rfl <;> exact absurd h (by decide)
  intro l hl hmem
  rcases List.mem_cons.mp hl with rfl | hl
  · obtain ⟨g⟩ := h.uuid.uuidText.1.groups
    rcases g.mem hmem with h | h
    · rcases hc with rfl | rfl <;> exact absurd h (by decide)
    · rcases hc with rfl | rfl <;> exact absurd h (by decide)
  · rcases List.mem_append.mp hl with hl | hl
    · obtain ⟨piece, hp, rfl⟩ := List.mem_map.mp hl
      exact hpiece piece (h.untagged piece hp) hmem
    · obtain ⟨t, ht, hl⟩ := List.mem_flatMap.mp hl
      rcases List.mem_cons.mp hl with rfl | hl
      · have htag := tagRe_mem (h.tags t ht) hmem
        rcases hc with rfl | rfl <;> exact absurd htag (by decide)
      · obtain ⟨piece, hp, rfl⟩ := List.mem_map.mp hl
        exact hpiece piece (h.tagged t ht piece hp) hmem

/-- The colons separate the uuid from the fields. -/
theorem Portion.WellFormed.splitOn_text {p : Portion} (h : p.WellFormed) :
    p.text.splitOn ':' = p.uuid :: p.fields :=
  List.splitOn_intercalate ':' (h.no_separator (.inl rfl)) (List.cons_ne_nil _ _)

/-- A part whose lower case is a portion is in the grammar and says what the portion says. -/
theorem Portion.WellFormed.partText {p : Portion} (h : p.WellFormed) {part : List Char}
    (hpart : part.map Char.toLower = p.text) :
    PartText part (p.uuid, p.meaning) ∧ ¬ LongPart part := by
  have hcolon : ∀ c : Char, c.toLower = ':' ↔ c = ':' := by
    intro c
    constructor
    · intro hc
      exact Py.eq_of_toLower hc (by decide)
    · rintro rfl
      rfl
  have hsplit := Py.splitOn_map hcolon part
  rw [hpart, h.splitOn_text] at hsplit
  obtain ⟨head, fields, hraw, hhead, hfields⟩ := List.map_eq_cons_iff.mp hsplit.symm
  have hboth : List.Forall₂ (fun f fd => FieldText f fd ∧ ¬ LongField f) fields p.meaning := by
    have hmeaning := h.meaning
    rw [← hfields, List.forall₂_map_left_iff] at hmeaning
    exact hmeaning.imp fun f fd hf => hf f rfl
  obtain ⟨huuid, -⟩ := h.uuid.uuidText
  rw [← hhead] at huuid
  refine ⟨⟨⟨head, fields, hraw, huuid, ?_, hboth.imp fun f fd hf => hf.1⟩, h.isInterval⟩, ?_⟩
  · exact (canonicalUuid_eq h.uuid hhead).symm
  · rintro ⟨head', fields', hraw', f, hf, hlong⟩
    obtain ⟨rfl, rfl⟩ := List.cons.inj (hraw.symm.trans hraw')
    obtain ⟨fd, -, hfd⟩ := forall₂_left hboth f hf
    exact hfd.2 hlong

/-! ### What a portion names -/

/-- Pieces belong to the tag before them. -/
theorem walk_pieces (tag : List Char) (pieces : List Piece) (fs : List Field) :
    walk tag (pieces.map Piece.field ++ fs)
      = pieces.map (fun p => (tag, (p.first, p.last))) ++ walk tag fs := by
  induction pieces with
  | nil => rfl
  | cons p pieces ih =>
      rw [List.map_cons, List.cons_append, Piece.field, walk, ih]
      rfl

/-- The parser's tag carries over to the pieces after it. -/
theorem walk_tagged (tag : List Char) (tagged : List (List Char × List Piece)) :
    walk tag (tagged.flatMap fun t => .tag t.1 :: t.2.map Piece.field)
      = tagged.flatMap fun t => t.2.map fun p => (t.1, (p.first, p.last)) := by
  induction tagged generalizing tag with
  | nil => rfl
  | cons t tagged ih =>
      rw [List.flatMap_cons, List.flatMap_cons, List.cons_append, walk, walk_pieces, ih]

/-- What the fields of a portion name are its transactions. -/
theorem namedBy_portion (p : Portion) (g : Gtid) : NamedBy p.uuid [] p.meaning g ↔ p.Has g := by
  have hwalk : walk [] p.meaning = p.untagged.map (fun q => ([], (q.first, q.last))) ++
      p.tagged.flatMap fun t => t.2.map fun q => (t.1, (q.first, q.last)) := by
    rw [Portion.meaning, walk_pieces, walk_tagged]
  rw [NamedBy, hwalk]
  constructor
  · rintro ⟨ti, hti, hkey, hrange⟩
    obtain ⟨huuid, htag⟩ := Prod.mk.inj hkey
    refine ⟨huuid, ?_⟩
    rcases List.mem_append.mp hti with h | h
    · obtain ⟨q, hq, rfl⟩ := List.mem_map.mp h
      exact .inl ⟨htag.symm, q, hq, hrange⟩
    · obtain ⟨t, ht, h⟩ := List.mem_flatMap.mp h
      obtain ⟨q, hq, rfl⟩ := List.mem_map.mp h
      exact .inr ⟨t, ht, htag, q, hq, hrange⟩
  · rintro ⟨huuid, ⟨htag, q, hq, hrange⟩ | ⟨t, ht, htag, q, hq, hrange⟩⟩
    · refine ⟨([], (q.first, q.last)), List.mem_append_left _ (List.mem_map.mpr ⟨q, hq, rfl⟩),
        Prod.ext huuid htag.symm, hrange⟩
    · refine ⟨(t.1, (q.first, q.last)), List.mem_append_right _ (List.mem_flatMap.mpr
        ⟨t, ht, List.mem_map.mpr ⟨q, hq, rfl⟩⟩), Prod.ext huuid htag, hrange⟩

/-! ### Reading a rendering -/

/-- A portion is not empty. -/
theorem Portion.text_ne_nil {p : Portion} (h : p.WellFormed) : p.text ≠ [] := by
  intro hnil
  have hsplit := h.splitOn_text
  rw [hnil, List.splitOn_nil] at hsplit
  have huuid : p.uuid = [] := (List.cons.inj hsplit).1.symm
  have hlen := h.uuid.1
  simp [huuid] at hlen

/-- A portion has no comma in it. -/
theorem Portion.WellFormed.no_comma {p : Portion} (h : p.WellFormed) : ',' ∉ p.text := by
  have hnone := h.no_separator (.inr rfl)
  intro hmem
  rcases Py.mem_intercalate _ hmem with h | ⟨l, hl, hc⟩
  · exact absurd h (by decide)
  · exact hnone l hl hc

/-- The parts of a rendering are its portions. -/
theorem parts_of_render {text : String} {ps : List Portion} (hps : ∀ p ∈ ps, p.WellFormed)
    (h : (Py.dropSpaces text.toList).map Char.toLower = render ps) :
    (parts text).map (List.map Char.toLower) = ps.map Portion.text := by
  -- Lower case neither makes a comma nor removes one.
  have hcomma : ∀ c : Char, c.toLower = ',' ↔ c = ',' := by
    intro c
    constructor
    · intro hc
      exact Py.eq_of_toLower hc (by decide)
    · rintro rfl
      rfl
  -- Nor does it change which parts are empty.
  have hfilter : ∀ ls : List (List Char),
      (ls.filter fun part => part ≠ []).map (List.map Char.toLower)
        = (ls.map (List.map Char.toLower)).filter fun part => part ≠ [] := by
    intro ls
    rw [List.filter_map]
    refine congrArg _ (List.filter_congr fun l _ => ?_)
    simp
  rw [parts, hfilter, ← Py.splitOn_map hcomma, h]
  by_cases hnil : ps = []
  · rw [hnil]
    rfl
  -- No portion has a comma inside, so the split undoes the join.
  · have hjoin : (render ps).splitOn ',' = ps.map Portion.text := by
      refine List.splitOn_intercalate ',' ?_ (by simpa using hnil)
      intro l hl
      obtain ⟨p, hp, rfl⟩ := List.mem_map.mp hl
      exact (hps p hp).no_comma
    rw [hjoin]
    -- No portion is empty, so the filter keeps them all.
    refine List.filter_eq_self.mpr fun l hl => ?_
    obtain ⟨p, hp, rfl⟩ := List.mem_map.mp hl
    simpa using Portion.text_ne_nil (hps p hp)

/-- Lists whose images agree agree element by element. -/
theorem forall₂_of_map_eq {α β γ : Type} {f : α → γ} {g : β → γ} :
    ∀ {as : List α} {bs : List β}, as.map f = bs.map g →
      List.Forall₂ (fun a b => f a = g b) as bs := by
  intro as
  induction as with
  | nil =>
      intro bs h
      rw [List.map_eq_nil_iff.mp h.symm]
      exact .nil
  | cons a as ih =>
      intro bs h
      obtain ⟨b, bs', rfl, hb, hbs⟩ := List.map_eq_cons_iff.mp h.symm
      exact .cons hb.symm (ih hbs.symm)

/-- The parser reads every rendering of a set as the set. -/
theorem parse_of_renders {text : String} {s : GtidSet} (h : Renders text s) :
    parse text = .ok s := by
  obtain ⟨ps, hps, htext, hmem⟩ := h
  have hparts := parts_of_render hps htext
  have hread : List.Forall₂ PartOf (parts text) (ps.map fun p => (p.uuid, p.meaning)) := by
    have hsame := forall₂_of_map_eq hparts
    have hboth := (List.forall₂_and_left ps (parts text)).mpr ⟨hps, hsame.flip⟩
    rw [List.forall₂_map_right_iff]
    refine hboth.flip.imp fun part p hp => ?_
    obtain ⟨hpart, hshort⟩ := hp.1.partText hp.2
    exact hpart.partOf hshort
  obtain ⟨s', hs', hmem'⟩ := parse_of_parts hread
  have heq : s' = s := by
    refine ext_mem fun g => ?_
    rw [hmem', hmem, Named]
    simp only [List.mem_map, exists_exists_and_eq_and, namedBy_portion]
  rw [hs', heq]

/-! ### The printer -/

/-- Keys with canonical uuids and tags, and intervals in range. -/
def CanonicalKeys (s : GtidSet) : Prop :=
  ∀ kv ∈ s.entries, CanonicalUuid kv.1.1.toList ∧
    (kv.1.2 = "" ∨ tagRe kv.1.2.toList = true) ∧ ∀ iv ∈ kv.2, 1 ≤ iv.1 ∧ iv.2 ≤ maxGno

instance (s : GtidSet) : Decidable (CanonicalKeys s) :=
  inferInstanceAs (Decidable (∀ kv ∈ s.entries, _))

/-- An interval as it is printed. -/
def piece (iv : Int × Int) : Piece := ⟨iv.1, iv.2, false⟩

/-- The portion that is printed for a uuid. -/
def portion (s : GtidSet) (u : String) : Portion where
  uuid := u.toList
  untagged := (s.entries.filter fun kv => kv.1.1 = u ∧ kv.1.2 = "").flatMap
    fun kv => kv.2.map piece
  tagged := (s.entries.filter fun kv => kv.1.1 = u ∧ kv.1.2 ≠ "").map
    fun kv => (kv.1.2.toList, kv.2.map piece)

/-- The portions that are printed. -/
def portions (s : GtidSet) : List Portion :=
  (s.entries.map fun kv => kv.1.1).dedup.map s.portion

/-- No text is below the empty one. -/
theorem eq_empty_of_le {t : String} (h : t ≤ "") : t = "" := by
  rw [String.le_iff_toList_le] at h
  have hnil : t.toList = [] := by
    cases ht : t.toList with
    | nil => rfl
    | cons c cs =>
        rw [ht] at h
        exact absurd (List.nil_lt_cons c cs) (not_lt.mpr h)
  rw [← String.toList_inj, hnil]
  rfl

/-- Of the entries of a uuid only the first can be untagged. -/
theorem tagged_after (s : GtidSet) (u : String) :
    (s.entries.filter fun kv => kv.1.1 = u).Pairwise fun _ b => b.1.2 ≠ "" := by
  have hsorted := s.sorted.filter fun kv => kv.1.1 = u
  refine hsorted.imp_of_mem fun {a b} ha hb hab htag => ?_
  have hau : a.1.1 = u := by simpa using (List.mem_filter.mp ha).2
  have hbu : b.1.1 = u := by simpa using (List.mem_filter.mp hb).2
  obtain ⟨hle, hne⟩ := hab
  rcases hle with hlt | ⟨huuid, hle⟩
  · rw [hau, hbu] at hlt
    exact lt_irrefl _ hlt
  · rw [htag] at hle
    exact hne (Prod.ext huuid ((eq_empty_of_le hle).trans htag.symm))

/-- The fields that are printed for entries of which only the first can be untagged. -/
theorem fields_of_tagged_after {m : Mapping} (h : m.Pairwise fun _ b => b.1.2 ≠ "") :
    (m.flatMap fun kv => (if kv.1.2 = "" then [] else [kv.1.2.toList]) ++
        kv.2.map fun iv => (piece iv).text)
      = ((m.filter fun kv => kv.1.2 = "").flatMap fun kv => kv.2.map piece).map Piece.text ++
        ((m.filter fun kv => kv.1.2 ≠ "").map fun kv => (kv.1.2.toList, kv.2.map piece)).flatMap
          fun t => t.1 :: t.2.map Piece.text := by
  -- With tags throughout, each entry is its tag and then its intervals.
  have htagged : ∀ m : Mapping, (∀ kv ∈ m, kv.1.2 ≠ "") →
      (m.flatMap fun kv => (if kv.1.2 = "" then [] else [kv.1.2.toList]) ++
          kv.2.map fun iv => (piece iv).text)
        = (m.map fun kv => (kv.1.2.toList, kv.2.map piece)).flatMap
          fun t => t.1 :: t.2.map Piece.text := by
    intro m hm
    rw [List.flatMap_map]
    refine List.flatMap_congr fun kv hkv => ?_
    rw [if_neg (hm kv hkv), List.map_map]
    rfl
  cases m with
  | nil => rfl
  | cons kv m =>
      -- All entries behind the first one have a tag.
      rw [List.pairwise_cons] at h
      have hnone : (m.filter fun kv => kv.1.2 = "") = [] :=
        List.filter_eq_nil_iff.mpr fun kv' hkv' => by simpa using h.1 kv' hkv'
      have hall : (m.filter fun kv => kv.1.2 ≠ "") = m :=
        List.filter_eq_self.mpr fun kv' hkv' => by simpa using h.1 kv' hkv'
      -- The first entry may be the untagged one, whose intervals come without a tag.
      by_cases htag : kv.1.2 = ""
      · rw [List.filter_cons_of_pos (by simpa using htag),
          List.filter_cons_of_neg (by simpa using htag), hnone, hall, List.flatMap_cons,
          htagged m h.1]
        simp [htag, Function.comp_def]
      · rw [List.filter_cons_of_neg (by simpa using htag),
          List.filter_cons_of_pos (by simpa using htag), hnone, hall]
        refine htagged (kv :: m) fun kv' hkv' => ?_
        rcases List.mem_cons.mp hkv' with rfl | hkv'
        · exact htag
        · exact h.1 kv' hkv'

/-- The text of a set is the rendering of its portions. -/
theorem toList_toText (s : GtidSet) : s.toText.toList = render s.portions := by
  have hinterval : ∀ iv : Int × Int, (if iv.1 = iv.2 then toString iv.1
      else toString iv.1 ++ "-" ++ toString iv.2).toList = (piece iv).text := by
    intro iv
    rw [Piece.text]
    by_cases h : iv.1 = iv.2
    · simp [piece, h, numeral]
    · simp [piece, h, numeral]
  have hportion : ∀ u : String, (":".intercalate <| u ::
      (s.entries.filter fun kv => kv.1.1 = u).flatMap fun kv =>
        (if kv.1.2 = "" then [] else [kv.1.2]) ++ kv.2.map fun iv : Int × Int =>
          if iv.1 = iv.2 then toString iv.1
          else toString iv.1 ++ "-" ++ toString iv.2).toList = (s.portion u).text := by
    intro u
    have hfields := fields_of_tagged_after (s.tagged_after u)
    rw [List.filter_filter, List.filter_filter] at hfields
    rw [String.toList_intercalate, List.map_cons, List.map_flatMap, Portion.text,
      Portion.fields]
    refine congrArg (fun fields => [':'].intercalate (u.toList :: fields)) ?_
    refine Eq.trans (List.flatMap_congr fun kv _ => ?_) (hfields.trans ?_)
    · rw [List.map_append, List.map_map]
      refine congrArg₂ (· ++ ·) ?_ (List.map_congr_left fun iv _ => hinterval iv)
      split <;> rfl
    · simp only [portion, Bool.decide_and, Bool.and_comm]
  rw [toText, String.toList_intercalate, List.map_map, render, portions, List.map_map]
  exact congrArg _ (List.map_congr_left fun u _ => hportion u)

/-- The printed portions are those of the keys. -/
theorem mem_portions {s : GtidSet} {p : Portion} :
    p ∈ s.portions ↔ ∃ kv ∈ s.entries, p = s.portion kv.1.1 := by
  simp only [portions, List.mem_map, List.mem_dedup]
  constructor
  · rintro ⟨u, ⟨kv, hkv, rfl⟩, rfl⟩
    exact ⟨kv, hkv, rfl⟩
  · rintro ⟨kv, hkv, rfl⟩
    exact ⟨_, ⟨kv, hkv, rfl⟩, rfl⟩

/-- An untagged piece comes from an untagged entry. -/
theorem mem_untagged {s : GtidSet} {u : String} {q : Piece} :
    q ∈ (s.portion u).untagged ↔
      ∃ kv ∈ s.entries, kv.1 = (u, "") ∧ ∃ iv ∈ kv.2, q = piece iv := by
  simp only [portion, List.mem_flatMap, List.mem_filter, decide_eq_true_eq, List.mem_map]
  constructor
  · rintro ⟨kv, ⟨hkv, hu, ht⟩, iv, hiv, rfl⟩
    exact ⟨kv, hkv, Prod.ext hu ht, iv, hiv, rfl⟩
  · rintro ⟨kv, hkv, hkey, iv, hiv, rfl⟩
    exact ⟨kv, ⟨hkv, by rw [hkey], by rw [hkey]⟩, iv, hiv, rfl⟩

/-- A tag with its pieces comes from a tagged entry. -/
theorem mem_tagged {s : GtidSet} {u : String} {t : List Char × List Piece} :
    t ∈ (s.portion u).tagged ↔ ∃ kv ∈ s.entries, kv.1.1 = u ∧ kv.1.2 ≠ "" ∧
      t = (kv.1.2.toList, kv.2.map piece) := by
  simp only [portion, List.mem_map, List.mem_filter, decide_eq_true_eq]
  constructor
  · rintro ⟨kv, ⟨hkv, hu, ht⟩, rfl⟩
    exact ⟨kv, hkv, hu, ht, rfl⟩
  · rintro ⟨kv, hkv, hu, ht, rfl⟩
    exact ⟨kv, ⟨hkv, hu, ht⟩, rfl⟩

/-- The intervals of a canonical set are in range. -/
theorem CanonicalKeys.inRange {s : GtidSet} (h : s.CanonicalKeys)
    {kv : Key × List (Int × Int)} (hkv : kv ∈ s.entries) {iv : Int × Int} (hiv : iv ∈ kv.2) :
    (piece iv).InRange := by
  obtain ⟨-, -, hrange⟩ := h kv hkv
  obtain ⟨hfirst, hlast⟩ := hrange iv hiv
  exact ⟨hfirst, (s.normal kv hkv).2.2 iv hiv, hlast⟩

/-- The portions of a set with canonical keys are well formed. -/
theorem CanonicalKeys.wellFormed {s : GtidSet} (h : s.CanonicalKeys) :
    ∀ p ∈ s.portions, p.WellFormed := by
  intro p hp
  obtain ⟨kv, hkv, rfl⟩ := mem_portions.mp hp
  constructor
  · exact (h kv hkv).1
  · intro q hq
    obtain ⟨kv', hkv', -, iv, hiv, rfl⟩ := mem_untagged.mp hq
    exact h.inRange hkv' hiv
  · intro t ht
    obtain ⟨kv', hkv', -, htag, rfl⟩ := mem_tagged.mp ht
    exact (h kv' hkv').2.1.resolve_left htag
  · intro t ht q hq
    obtain ⟨kv', hkv', -, -, rfl⟩ := mem_tagged.mp ht
    obtain ⟨iv, hiv, rfl⟩ := List.mem_map.mp hq
    exact h.inRange hkv' hiv
  · -- the entry of the portion has an interval
    obtain ⟨iv, hiv⟩ := List.exists_mem_of_ne_nil _ (s.normal kv hkv).1
    by_cases htag : kv.1.2 = ""
    · left
      have hq : piece iv ∈ (s.portion kv.1.1).untagged :=
        mem_untagged.mpr ⟨kv, hkv, Prod.ext rfl htag, iv, hiv, rfl⟩
      exact List.ne_nil_of_mem hq
    · right
      refine ⟨_, mem_tagged.mpr ⟨kv, hkv, rfl, htag, rfl⟩, ?_⟩
      exact List.ne_nil_of_mem (List.mem_map_of_mem hiv)

/-- The transactions of the portions are those of the set. -/
theorem mem_iff_portions (s : GtidSet) (g : Gtid) : g ∈ s ↔ ∃ p ∈ s.portions, p.Has g := by
  constructor
  · rintro ⟨kv, hkv, hkey, iv, hiv, hrange⟩
    refine ⟨_, mem_portions.mpr ⟨kv, hkv, rfl⟩, ?_, ?_⟩
    · rw [← hkey]
      exact String.ofList_toList
    · by_cases htag : kv.1.2 = ""
      · left
        rw [← hkey]
        exact ⟨htag, piece iv, mem_untagged.mpr ⟨kv, hkv, Prod.ext rfl htag, iv, hiv, rfl⟩,
          hrange⟩
      · right
        rw [← hkey]
        exact ⟨_, mem_tagged.mpr ⟨kv, hkv, rfl, htag, rfl⟩, String.ofList_toList, piece iv,
          List.mem_map_of_mem hiv, hrange⟩
  · rintro ⟨p, hp, huuid, h⟩
    obtain ⟨kv, hkv, rfl⟩ := mem_portions.mp hp
    have hu : kv.1.1 = g.1.1 := String.ofList_toList.symm.trans huuid
    rcases h with ⟨htag, q, hq, hrange⟩ | ⟨t, ht, htag, q, hq, hrange⟩
    · obtain ⟨kv', hkv', hkey, iv, hiv, rfl⟩ := mem_untagged.mp hq
      exact ⟨kv', hkv', hkey.trans (Prod.ext hu htag.symm), iv, hiv, hrange⟩
    · obtain ⟨kv', hkv', hu', -, rfl⟩ := mem_tagged.mp ht
      obtain ⟨iv, hiv, rfl⟩ := List.mem_map.mp hq
      have ht : kv'.1.2 = g.1.2 := String.ofList_toList.symm.trans htag
      exact ⟨kv', hkv', Prod.ext (hu'.trans hu) ht, iv, hiv, hrange⟩

/-! ### The round trip -/

/-- Dashes and digits are neat. -/
theorem neat_of_isDigit {c : Char} (h : c = '-' ∨ c.isDigit = true) : Neat c := by
  rcases h with rfl | h
  · exact by decide
  · rw [Py.isDigit_iff] at h
    show 44 ≤ c.toNat ∧ c.toNat ≤ 122 ∧ ¬ (65 ≤ c.toNat ∧ c.toNat ≤ 90)
    omega

/-- The characters of a rendering are neat. -/
theorem neat_of_render {ps : List Portion} (hps : ∀ p ∈ ps, p.WellFormed) :
    ∀ c ∈ render ps, Neat c := by
  intro c hc
  rcases Py.mem_intercalate _ hc with rfl | ⟨l, hl, hc⟩
  · decide
  · obtain ⟨p, hp, rfl⟩ := List.mem_map.mp hl
    have hwell := hps p hp
    rcases Py.mem_intercalate _ hc with rfl | ⟨l, hl, hc⟩
    · decide
    · rcases List.mem_cons.mp hl with rfl | hl
      · obtain ⟨g⟩ := hwell.uuid.uuidText.1.groups
        rcases g.mem hc with hex | rfl
        · rw [isHex_iff] at hex
          show 44 ≤ c.toNat ∧ c.toNat ≤ 122 ∧ ¬ (65 ≤ c.toNat ∧ c.toNat ≤ 90)
          omega
        · decide
      · rcases List.mem_append.mp hl with hl | hl
        · obtain ⟨q, hq, rfl⟩ := List.mem_map.mp hl
          exact neat_of_isDigit ((hwell.untagged q hq).text.1.mem c hc)
        · obtain ⟨t, ht, hl⟩ := List.mem_flatMap.mp hl
          rcases List.mem_cons.mp hl with rfl | hl
          · have htag := tagRe_mem (hwell.tags t ht) hc
            rw [Bool.or_eq_true, Bool.or_eq_true, Py.isLower_iff, Py.isDigit_iff, beq_iff_eq,
              eq_underscore_iff] at htag
            show 44 ≤ c.toNat ∧ c.toNat ≤ 122 ∧ ¬ (65 ≤ c.toNat ∧ c.toNat ≤ 90)
            omega
          · obtain ⟨q, hq, rfl⟩ := List.mem_map.mp hl
            exact neat_of_isDigit ((hwell.tagged t ht q hq).text.1.mem c hc)

/-- The printed text is a rendering. -/
theorem renders_toText {s : GtidSet} (h : s.CanonicalKeys) : Renders s.toText s := by
  have hneat := neat_of_render h.wellFormed
  have hspaces : Py.dropSpaces (render s.portions) = render s.portions :=
    List.filter_eq_self.mpr fun c hc => by simp [(hneat c hc).not_isSpace]
  have hlower : (render s.portions).map Char.toLower = (render s.portions).map id :=
    List.map_congr_left fun c hc => (hneat c hc).toLower
  refine ⟨s.portions, h.wellFormed, ?_, mem_iff_portions s⟩
  rw [toList_toText, hspaces, hlower, List.map_id]

/-- The parser reads the printed text of a set, and every other rendering, as the set. -/
theorem text_round_trip (s : GtidSet) (h : s.CanonicalKeys) :
    parse s.toText = .ok s ∧ ∀ text, Renders text s → parse text = .ok s :=
  ⟨parse_of_renders (renders_toText h), fun _ => parse_of_renders⟩

/-- Two uuids, one of them with a tag. -/
def sample : GtidSet :=
  build [(("3e11fa47-71ca-11e1-9e33-c80aa9429562", ""), [(1, 5), (7, 7)]),
      (("3e11fa47-71ca-11e1-9e33-c80aa9429562", "nightly_1"), [(2, 3)]),
      (("90e5a1f2-0000-11ee-8c3d-0242ac130002", ""), [(1, 9223372036854775807)])]
    (by decide) (by decide)

/-- The printed sample parses to itself, and so does each of its renderings. -/
theorem text_round_trip_sample :
    parse sample.toText = .ok sample ∧ ∀ text, Renders text sample → parse text = .ok sample :=
  text_round_trip sample (by decide +kernel)

end GtidSet

end DbGuard
