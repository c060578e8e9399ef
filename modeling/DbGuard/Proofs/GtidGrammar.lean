import DbGuard.Proofs.GtidReading

/-!
# `DbGuard.Proofs.GtidGrammar`: the grammar of GTID sets

`Grammar` is what a GTID set looks like, written without the parser: uuids with four dashes or
none, numbers of ASCII digits, ASCII tags. The parser checks uuids and tags with regular
expressions after `str.lower`, and numbers with `str.isdigit` and `int`, each of which lets
more through. `SloppyField` names the spellings that only the parser accepts, and `LongField`
the numbers that only the grammar accepts. Uuids, tags, intervals and fields are compared here,
each in both directions.
-/

set_option autoImplicit false

namespace DbGuard

namespace GtidSet

/-! ### The grammar -/

/-- `k` hex digits in lower case. -/
def Hexes (k : Nat) (u : List Char) : Prop := u.length = k ∧ ∀ c ∈ u, isHex c = true

/-- The spellings of a uuid in lower case: 32 hex digits without a dash, or dashed
8-4-4-4-12. -/
inductive UuidText : List Char → Prop
  | bare {u} : Hexes 32 u → UuidText u
  | grouped {a b c d e} : Hexes 8 a → Hexes 4 b → Hexes 4 c → Hexes 4 d → Hexes 12 e →
      UuidText (a ++ '-' :: (b ++ '-' :: (c ++ '-' :: (d ++ '-' :: e))))

/-- The canonical spelling: lower case and dashed. -/
def canonicalUuid (head : List Char) : List Char :=
  dashed ((head.filter (· ≠ '-')).map Char.toLower)

/-- The number that ASCII digits write. -/
def number (text : List Char) : Int := Nat.ofDigitChars 10 text 0

/-- The spellings of an interval: `n` or `s-e`. -/
inductive IntervalText : List Char → Int × Int → Prop
  | single {a} : Py.Numeral a → IntervalText a (number a, number a)
  | range {a b} : Py.Numeral a → Py.Numeral b →
      IntervalText (a ++ '-' :: b) (number a, number b)

/-- The spellings of a tag: `[A-Za-z_][A-Za-z0-9_]{0,31}`. -/
def TagText (f : List Char) : Prop :=
  ∃ c rest, f = c :: rest ∧ (c.isAlpha = true ∨ c = '_') ∧ rest.length ≤ 31 ∧
    ∀ d ∈ rest, d.isAlphanum = true ∨ d = '_'

/-- A field of the grammar and what it says. -/
inductive FieldText : List Char → Field → Prop
  | interval {f iv} : IntervalText f iv → 1 ≤ iv.1 → iv.1 ≤ iv.2 → iv.2 ≤ maxGno →
      FieldText f (.interval iv)
  | tag {f} : TagText f → FieldText f (.tag (f.map Char.toLower))

/-- A part of the grammar and what it says. -/
structure PartText (part : List Char) (p : Part) : Prop where
  spelled : ∃ head fields, part.splitOn ':' = head :: fields ∧
    UuidText (head.map Char.toLower) ∧
    p.1 = canonicalUuid head ∧ List.Forall₂ FieldText fields p.2
  interval : p.2.any Field.isInterval = true

/-- The grammar of GTID sets. -/
def Grammar (text : String) : Prop := ∀ part ∈ parts text, ∃ p, PartText part p

/-! ### Uuids -/

/-- A run of hex digits and what is left behind it. -/
theorem hexRun_eq_some :
    ∀ (k : Nat) (u r : List Char), hexRun k u = some r ↔ ∃ a, Hexes k a ∧ u = a ++ r := by
  -- By induction on the length of the run.
  intro k
  induction k with
  | zero =>
      intro u r
      simp only [hexRun, Option.some.injEq]
      constructor
      · rintro rfl
        exact ⟨[], ⟨rfl, by simp⟩, rfl⟩
      · rintro ⟨a, ha, rfl⟩
        rw [List.length_eq_zero_iff.mp ha.1]
        rfl
  | succ k ih =>
      intro u r
      cases u with
      -- The text has ended before the run, so neither side holds.
      | nil =>
          simp only [hexRun, reduceCtorEq, false_iff]
          rintro ⟨a, ha, h⟩
          have hnil : a = [] := (List.append_eq_nil_iff.mp h.symm).1
          have hlen := ha.1
          simp [hnil] at hlen
      | cons c u =>
          simp only [hexRun]
          constructor
          -- The head is a hex digit and the tail starts with a shorter run, and backwards.
          · intro h
            split at h
            · rename_i hc
              obtain ⟨a, ha, rfl⟩ := (ih u r).mp h
              exact ⟨c :: a, ⟨by simp [ha.1], by simpa [hc] using ha.2⟩, rfl⟩
            · cases h
          · rintro ⟨a, ha, h⟩
            cases a with
            | nil =>
                have hlen := ha.1
                simp at hlen
            | cons d a =>
                obtain ⟨rfl, rfl⟩ := List.cons.inj h
                rw [if_pos (ha.2 c List.mem_cons_self)]
                have hrest : Hexes k a :=
                  ⟨by simpa using ha.1, fun x hx => ha.2 x (List.mem_cons_of_mem _ hx)⟩
                exact (ih _ r).mpr ⟨a, hrest, rfl⟩

/-- A dash is no hex digit. -/
theorem not_dash_of_isHex {c : Char} (h : isHex c = true) : c ≠ '-' := by
  rintro rfl
  exact absurd h (by decide)

/-- There is no dash in a run of hex digits. -/
theorem Hexes.no_dash {k : Nat} {u : List Char} (h : Hexes k u) : '-' ∉ u :=
  fun hmem => not_dash_of_isHex (h.2 '-' hmem) rfl

/-- So it counts no dash. -/
theorem Hexes.count_dash {k : Nat} {u : List Char} (h : Hexes k u) : u.count '-' = 0 :=
  List.count_eq_zero.mpr h.no_dash

/-- Hex digits do not start with a dash. -/
theorem Hexes.head {k : Nat} {a : List Char} (h : Hexes (k + 1) a) (r : List Char) :
    (a ++ r).head? ≠ some '-' := by
  cases a with
  | nil =>
      have hlen := h.1
      simp at hlen
  | cons c a =>
      have hc := not_dash_of_isHex (h.2 c List.mem_cons_self)
      simpa using hc

/-- An optional dash. -/
abbrev OptDash (x : List Char) : Prop := x = [] ∨ x = ['-']

/-- An optional dash counts as often as it stands. -/
theorem OptDash.count_dash {x : List Char} (h : OptDash x) : x.count '-' = x.length := by
  rcases h with rfl | rfl
  · rfl
  · rfl

/-- What an optional dash leaves. -/
theorem optDash_eq (u : List Char) : ∃ x, OptDash x ∧ u = x ++ optDash u := by
  unfold optDash
  split
  · exact ⟨['-'], .inr rfl, rfl⟩
  · exact ⟨[], .inl rfl, rfl⟩

/-- It takes the dash that stands there and no other. -/
theorem optDash_append {x u : List Char} (hx : OptDash x) (hu : u.head? ≠ some '-') :
    optDash (x ++ u) = u := by
  rcases hx with rfl | rfl
  · cases u with
    | nil => rfl
    | cons c u =>
        have hc : c ≠ '-' := by simpa using hu
        show optDash (c :: u) = c :: u
        unfold optDash
        split
        · rename_i heq
          exact absurd (List.cons.inj heq).1 hc
        · rfl
  · rfl

/-- What the regular expression for uuids accepts: five groups with optional dashes. -/
structure Groups (u : List Char) where
  a : List Char
  b : List Char
  c : List Char
  d : List Char
  e : List Char
  x : List Char
  y : List Char
  z : List Char
  w : List Char
  ha : Hexes 8 a
  hb : Hexes 4 b
  hc : Hexes 4 c
  hd : Hexes 4 d
  he : Hexes 12 e
  hx : OptDash x
  hy : OptDash y
  hz : OptDash z
  hw : OptDash w
  spelled : u = a ++ (x ++ (b ++ (y ++ (c ++ (z ++ (d ++ (w ++ e)))))))

/-- The expression accepts exactly five groups of hex digits. -/
theorem uuidRe_iff (u : List Char) : uuidRe u = true ↔ Nonempty (Groups u) := by
  constructor
  · intro h
    obtain ⟨u₁, h₁, h⟩ := (Option.any_eq_true _ _).mp h
    obtain ⟨u₂, h₂, h⟩ := (Option.any_eq_true _ _).mp h
    obtain ⟨u₃, h₃, h⟩ := (Option.any_eq_true _ _).mp h
    obtain ⟨u₄, h₄, h⟩ := (Option.any_eq_true _ _).mp h
    obtain ⟨a, ha, hu⟩ := (hexRun_eq_some _ _ _).mp h₁
    obtain ⟨b, hb, hu₁⟩ := (hexRun_eq_some _ _ _).mp h₂
    obtain ⟨c, hc, hu₂⟩ := (hexRun_eq_some _ _ _).mp h₃
    obtain ⟨d, hd, hu₃⟩ := (hexRun_eq_some _ _ _).mp h₄
    obtain ⟨e, he, hu₄⟩ := (hexRun_eq_some _ _ _).mp (by simpa using h)
    obtain ⟨x, hx, hdash₁⟩ := optDash_eq u₁
    obtain ⟨y, hy, hdash₂⟩ := optDash_eq u₂
    obtain ⟨z, hz, hdash₃⟩ := optDash_eq u₃
    obtain ⟨w, hw, hdash₄⟩ := optDash_eq u₄
    have hspell : u = a ++ (x ++ (b ++ (y ++ (c ++ (z ++ (d ++ (w ++ e))))))) := by
      rw [hu, hdash₁, hu₁, hdash₂, hu₂, hdash₃, hu₃, hdash₄, hu₄, List.append_nil]
    exact ⟨⟨a, b, c, d, e, x, y, z, w, ha, hb, hc, hd, he, hx, hy, hz, hw, hspell⟩⟩
  · rintro ⟨g⟩
    have h₁ := (hexRun_eq_some 8 u _).mpr ⟨g.a, g.ha, g.spelled⟩
    have h₂ := fun r => (hexRun_eq_some 4 (g.b ++ r) r).mpr ⟨g.b, g.hb, rfl⟩
    have h₃ := fun r => (hexRun_eq_some 4 (g.c ++ r) r).mpr ⟨g.c, g.hc, rfl⟩
    have h₄ := fun r => (hexRun_eq_some 4 (g.d ++ r) r).mpr ⟨g.d, g.hd, rfl⟩
    have h₅ : hexRun 12 g.e = some [] := (hexRun_eq_some 12 g.e []).mpr ⟨g.e, g.he, by simp⟩
    have hlast : g.e.head? ≠ some '-' := by simpa using g.he.head []
    simp only [uuidRe, h₁, Option.any_some, optDash_append g.hx (g.hb.head _), h₂,
      optDash_append g.hy (g.hc.head _), h₃, optDash_append g.hz (g.hd.head _), h₄,
      optDash_append g.hw hlast, h₅, beq_self_eq_true]

/-- The dashes of an accepted uuid are the optional ones. -/
theorem Groups.count_dash {u : List Char} (g : Groups u) :
    u.count '-' = g.x.length + g.y.length + g.z.length + g.w.length := by
  rw [congrArg (List.count '-') g.spelled]
  simp only [List.count_append, g.hx.count_dash, g.hy.count_dash, g.hz.count_dash,
    g.hw.count_dash, g.ha.count_dash, g.hb.count_dash, g.hc.count_dash, g.hd.count_dash,
    g.he.count_dash]
  omega

/-- Every character of an accepted uuid is a hex digit or a dash. -/
theorem Groups.mem {u : List Char} (g : Groups u) {c : Char} (hc : c ∈ u) :
    isHex c = true ∨ c = '-' := by
  have hdash : ∀ x : List Char, OptDash x → c ∈ x → c = '-' := by
    rintro x (rfl | rfl) hx
    · cases hx
    · exact List.mem_singleton.mp hx
  rw [g.spelled] at hc
  simp only [List.mem_append] at hc
  rcases hc with h | h | h | h | h | h | h | h | h
  · exact .inl (g.ha.2 c h)
  · exact .inr (hdash _ g.hx h)
  · exact .inl (g.hb.2 c h)
  · exact .inr (hdash _ g.hy h)
  · exact .inl (g.hc.2 c h)
  · exact .inr (hdash _ g.hz h)
  · exact .inl (g.hd.2 c h)
  · exact .inr (hdash _ g.hw h)
  · exact .inl (g.he.2 c h)

/-- Accepted uuids with no dash or with four are in the grammar. -/
theorem Groups.uuidText {u : List Char} (g : Groups u)
    (hcount : u.count '-' = 0 ∨ u.count '-' = 4) : UuidText u := by
  -- Each optional dash is there or not, and the count of dashes says how many are.
  have hnil : ∀ x : List Char, x.length = 0 → x = [] := fun _ => List.length_eq_zero_iff.mp
  have hone : ∀ x : List Char, OptDash x → x.length ≤ 1 := by
    rintro x (rfl | rfl)
    · simp
    · simp
  have hdash : ∀ x : List Char, OptDash x → x.length = 1 → x = ['-'] := by
    rintro x (rfl | rfl) hlen
    · simp at hlen
    · rfl
  have hsum := g.count_dash
  have h₁ := hone _ g.hx
  have h₂ := hone _ g.hy
  have h₃ := hone _ g.hz
  have h₄ := hone _ g.hw
  have hspell := g.spelled
  rcases hcount with h0 | h4
  -- No dash: the groups stand together.
  · rw [hnil g.x (by omega), hnil g.y (by omega), hnil g.z (by omega), hnil g.w (by omega)]
      at hspell
    simp only [List.nil_append] at hspell
    refine .bare ⟨?_, fun c hc => ?_⟩
    · rw [hspell]
      simp only [List.length_append, g.ha.1, g.hb.1, g.hc.1, g.hd.1, g.he.1]
    · rcases g.mem hc with hex | rfl
      · exact hex
      · exact absurd hc (List.count_eq_zero.mp h0)
  -- Four dashes: each of the four is there.
  · rw [hdash g.x g.hx (by omega), hdash g.y g.hy (by omega), hdash g.z g.hz (by omega),
      hdash g.w g.hw (by omega)] at hspell
    rw [hspell]
    exact .grouped g.ha g.hb g.hc g.hd g.he

/-- The uuids of the grammar are accepted. -/
theorem UuidText.groups {u : List Char} (h : UuidText u) : Nonempty (Groups u) := by
  cases h with
  | bare h =>
      obtain ⟨hlen, hex⟩ := h
      have hcut : u = u.take 8 ++ ((u.drop 8).take 4 ++ ((u.drop 12).take 4 ++
          ((u.drop 16).take 4 ++ u.drop 20))) := by
        have h₁ := List.take_append_drop 8 u
        have h₂ := List.take_append_drop 4 (u.drop 8)
        have h₃ := List.take_append_drop 4 (u.drop 12)
        have h₄ := List.take_append_drop 4 (u.drop 16)
        simp only [List.drop_drop, Nat.reduceAdd] at h₂ h₃ h₄
        rw [h₄, h₃, h₂, h₁]
      have hpiece : ∀ i k, i + k ≤ 32 → Hexes k ((u.drop i).take k) := by
        intro i k hle
        refine ⟨?_, fun c hc => hex c (List.mem_of_mem_drop (List.mem_of_mem_take hc))⟩
        simp only [List.length_take, List.length_drop]
        omega
      have hlast : Hexes 12 (u.drop 20) := by
        refine ⟨?_, fun c hc => hex c (List.mem_of_mem_drop hc)⟩
        simp only [List.length_drop]
        omega
      exact ⟨⟨_, _, _, _, _, [], [], [], [], hpiece 0 8 (by omega), hpiece 8 4 (by omega),
        hpiece 12 4 (by omega), hpiece 16 4 (by omega), hlast, .inl rfl, .inl rfl, .inl rfl,
        .inl rfl, by simpa using hcut⟩⟩
  | grouped ha hb hc hd he =>
      exact ⟨⟨_, _, _, _, _, ['-'], ['-'], ['-'], ['-'], ha, hb, hc, hd, he, .inr rfl, .inr rfl,
        .inr rfl, .inr rfl, rfl⟩⟩

/-- A uuid has no dash or four. -/
theorem UuidText.count_dash {u : List Char} (h : UuidText u) :
    u.count '-' = 0 ∨ u.count '-' = 4 := by
  cases h with
  | bare h => exact .inl h.count_dash
  | grouped ha hb hc hd he =>
      simp [ha.count_dash, hb.count_dash, hc.count_dash, hd.count_dash, he.count_dash]

/-! ### Normalising a uuid -/

/-- Dashes go between the five groups. -/
theorem dashed_append {a b c d e : List Char} (ha : a.length = 8) (hb : b.length = 4)
    (hc : c.length = 4) (hd : d.length = 4) (he : e.length = 12) :
    dashed (a ++ (b ++ (c ++ (d ++ e)))) =
      a ++ '-' :: (b ++ '-' :: (c ++ '-' :: (d ++ '-' :: e))) := by
  have h8 : (a ++ (b ++ (c ++ (d ++ e)))).drop 8 = b ++ (c ++ (d ++ e)) := List.drop_left' ha
  have h12 : (a ++ (b ++ (c ++ (d ++ e)))).drop 12 = c ++ (d ++ e) := by
    rw [show 12 = 8 + 4 from rfl, ← List.drop_drop, h8, List.drop_left' hb]
  have h16 : (a ++ (b ++ (c ++ (d ++ e)))).drop 16 = d ++ e := by
    rw [show 16 = 12 + 4 from rfl, ← List.drop_drop, h12, List.drop_left' hc]
  have h20 : (a ++ (b ++ (c ++ (d ++ e)))).drop 20 = e := by
    rw [show 20 = 16 + 4 from rfl, ← List.drop_drop, h16, List.drop_left' hd]
  rw [dashed, h8, h12, h16, h20, List.take_left' ha, List.take_left' hb, List.take_left' hc,
    List.take_left' hd, ← he, List.take_length]
  simp

/-- Lower case makes no dash and loses none. -/
theorem toLower_eq_dash (c : Char) : c.toLower = '-' ↔ c = '-' := by
  constructor
  · intro h
    exact Py.eq_of_toLower h (by decide)
  · rintro rfl
    rfl

/-- So it keeps their count. -/
theorem count_dash_map (u : List Char) : (u.map Char.toLower).count '-' = u.count '-' := by
  induction u with
  | nil => rfl
  | cons c u ih =>
      have hbeq : (c.toLower == '-') = (c == '-') := by
        rw [Bool.eq_iff_iff, beq_iff_eq, beq_iff_eq]
        exact toLower_eq_dash c
      rw [List.map_cons, List.count_cons, List.count_cons, ih, hbeq]

/-- Dashes can be dropped before or after. -/
theorem filter_map_dash (u : List Char) :
    (u.filter (· ≠ '-')).map Char.toLower = (u.map Char.toLower).filter (· ≠ '-') := by
  rw [List.filter_map]
  refine congrArg _ (List.filter_congr fun c _ => ?_)
  simp [toLower_eq_dash]

/-- A canonical uuid is dashed, and its own canonical spelling. -/
theorem UuidText.canonical {head : List Char} (h : UuidText (head.map Char.toLower)) :
    canonicalUuid head = if '-' ∉ head.map Char.toLower then dashed (head.map Char.toLower)
      else head.map Char.toLower := by
  have hfilter : ∀ l : List Char, (∀ c ∈ l, isHex c = true) → l.filter (· ≠ '-') = l := by
    intro l hl
    refine List.filter_eq_self.mpr fun c hc => ?_
    simpa using not_dash_of_isHex (hl c hc)
  rw [canonicalUuid, filter_map_dash]
  generalize head.map Char.toLower = u at h
  cases h with
  | bare h =>
      rw [if_pos h.no_dash, hfilter u h.2]
  | @grouped a b c d e ha hb hc hd he =>
      rw [if_neg (by simp), ← dashed_append ha.1 hb.1 hc.1 hd.1 he.1]
      refine congrArg dashed ?_
      have hdash : ∀ l : List Char, ('-' :: l).filter (· ≠ '-') = l.filter (· ≠ '-') := by
        simp
      rw [dashed_append ha.1 hb.1 hc.1 hd.1 he.1]
      simp only [List.filter_append, hdash, hfilter a ha.2, hfilter b hb.2, hfilter c hc.2,
        hfilter d hd.2, hfilter e he.2]

/-- The codes of the hex digits. -/
theorem isHex_iff (c : Char) : isHex c = true ↔
    (48 ≤ c.toNat ∧ c.toNat ≤ 57) ∨ (97 ≤ c.toNat ∧ c.toNat ≤ 102) := by
  rw [isHex, Bool.or_eq_true, Py.isDigit_iff, Bool.and_eq_true, decide_eq_true_eq,
    decide_eq_true_eq]
  exact Iff.rfl

/-- `_norm_uuid` takes the uuids of the grammar to their canonical spelling. -/
theorem normUuid_of_uuidText {head : List Char} (h : UuidText (head.map Char.toLower)) :
    normUuid head = .ok (canonicalUuid head) := by
  obtain ⟨g⟩ := h.groups
  have hmem : ∀ c ∈ head, isHex c.toLower = true ∨ c.toLower = '-' := fun c hc =>
    g.mem (List.mem_map_of_mem hc)
  have hrange : ∀ c ∈ head, 45 ≤ c.toLower.toNat ∧ c.toLower.toNat ≤ 122 := by
    intro c hc
    rcases hmem c hc with hhex | hdash
    · have hbounds := (isHex_iff _).mp hhex
      omega
    · rw [hdash]
      decide
  have hstrip : Py.strip head = head := Py.strip_of_forall fun c hc =>
    Py.not_isSpace_of_toLower (hrange c hc).1 (hrange c hc).2
  have hlower : Py.lower head = head.map Char.toLower := by
    refine Py.lower_of_forall fun c hc => ⟨?_, ?_⟩
    · rintro rfl
      exact absurd (hrange _ hc).2 (by decide)
    · rintro rfl
      exact absurd (hrange _ hc).2 (by decide)
  simp only [normUuid]
  rw [hstrip, hlower, (uuidRe_iff _).mpr ⟨g⟩, h.canonical]
  simp

/-- A uuid that `_norm_uuid` accepts, with no dash or with four, is in the grammar. -/
theorem uuidText_of_normUuid {head u : List Char} (hspace : ∀ c ∈ head, Py.isSpace c = false)
    (h : normUuid head = .ok u) (hcount : head.count '-' = 0 ∨ head.count '-' = 4) :
    UuidText (head.map Char.toLower) := by
  simp only [normUuid, Py.strip_of_forall hspace] at h
  split at h
  · cases h
  · rename_i hre
    have hre' : uuidRe (Py.lower head) = true := by simpa using hre
    obtain ⟨g⟩ := (uuidRe_iff _).mp hre'
    have hno : ∀ c : Char, ¬ (isHex c = true ∨ c = '-') → c ∉ Py.lower head :=
      fun c hc hmem => hc (g.mem hmem)
    have hlower := Py.lower_special (fun _ => hno 'k' (by decide)) (hno '\u0307' (by decide))
    rw [hlower] at g
    rw [← count_dash_map] at hcount
    exact g.uuidText hcount

/-! ### Tags -/

/-- The code of the underscore. -/
theorem eq_underscore_iff (c : Char) : c = '_' ↔ c.toNat = 95 :=
  Char.toNat_inj.symm

/-- A first character of a tag, in lower case. -/
theorem tagHead_iff (c : Char) :
    (c.toLower.isLower || c.toLower == '_') = true ↔ c.isAlpha = true ∨ c = '_' := by
  have hnat := Py.toNat_toLower c
  rw [Bool.or_eq_true, beq_iff_eq, Py.isLower_iff, eq_underscore_iff, Py.isAlpha_iff,
    eq_underscore_iff]
  split at hnat <;> omega

/-- A later character of a tag, in lower case. -/
theorem tagRest_iff (c : Char) :
    (c.toLower.isLower || c.toLower.isDigit || c.toLower == '_') = true ↔
      c.isAlphanum = true ∨ c = '_' := by
  have hnat := Py.toNat_toLower c
  rw [Char.isAlphanum, Bool.or_eq_true, Bool.or_eq_true, beq_iff_eq, Py.isLower_iff,
    Py.isDigit_iff, eq_underscore_iff, Bool.or_eq_true, Py.isAlpha_iff, Py.isDigit_iff,
    eq_underscore_iff]
  split at hnat <;> omega

/-- The characters of a tag in lower case. -/
theorem tagRe_mem {t : List Char} (h : tagRe t = true) {c : Char} (hc : c ∈ t) :
    (c.isLower || c.isDigit || c == '_') = true := by
  cases t with
  | nil => cases hc
  | cons d rest =>
      simp only [tagRe, Bool.and_eq_true, List.all_eq_true] at h
      rcases List.mem_cons.mp hc with rfl | hc
      · have hhead := h.1.1
        rw [Bool.or_eq_true] at hhead ⊢
        rw [Bool.or_eq_true]
        exact hhead.imp .inl id
      · exact h.2 c hc

/-- A tag matches in lower case exactly if it is in the grammar. -/
theorem tagRe_map_iff (f : List Char) : tagRe (f.map Char.toLower) = true ↔ TagText f := by
  cases f with
  | nil =>
      constructor
      · intro h
        cases h
      · rintro ⟨c, rest, h, -⟩
        cases h
  | cons c rest =>
      have hall : ((rest.map Char.toLower).all fun d => d.isLower || d.isDigit || d == '_') = true
          ↔ ∀ d ∈ rest, d.isAlphanum = true ∨ d = '_' := by
        rw [List.all_map, List.all_eq_true]
        exact forall₂_congr fun d _ => tagRest_iff d
      rw [List.map_cons, tagRe, Bool.and_eq_true, Bool.and_eq_true, tagHead_iff, hall,
        List.length_map, decide_eq_true_eq]
      constructor
      · rintro ⟨⟨hc, hlen⟩, hrest⟩
        exact ⟨c, rest, rfl, hc, hlen, hrest⟩
      · rintro ⟨c', rest', h, hc, hlen, hrest⟩
        obtain ⟨rfl, rfl⟩ := List.cons.inj h
        exact ⟨⟨hc, hlen⟩, hrest⟩

/-- The characters of a tag are ASCII. -/
theorem TagText.ascii {f : List Char} (h : TagText f) : ∀ c ∈ f, Py.Ascii c := by
  obtain ⟨c, rest, rfl, hc, -, hrest⟩ := h
  intro d hd
  show d.toNat < 128
  rcases List.mem_cons.mp hd with rfl | hd
  · rw [Py.isAlpha_iff, eq_underscore_iff] at hc
    omega
  · have hd' := hrest d hd
    rw [Char.isAlphanum, Bool.or_eq_true, Py.isAlpha_iff, Py.isDigit_iff, eq_underscore_iff] at hd'
    omega

/-- Python lowers a tag as ASCII. -/
theorem TagText.lower {f : List Char} (h : TagText f) : Py.lower f = f.map Char.toLower := by
  refine Py.lower_of_forall fun c hc => ⟨?_, ?_⟩
  · rintro rfl
    exact absurd (h.ascii _ hc) (by decide)
  · rintro rfl
    exact absurd (h.ascii _ hc) (by decide)

/-- The parser reads the tags of the grammar. -/
theorem TagText.fieldOf_eq {f : List Char} (h : TagText f) :
    fieldOf f = some (.tag (f.map Char.toLower)) := by
  have hlower := h.lower
  have hre := (tagRe_map_iff f).mpr h
  have hascii := h.ascii
  obtain ⟨c, rest, rfl, hc, -, -⟩ := h
  have hdigit : ¬ Py.isDigit c = true := by
    rw [Py.isDigit_of_ascii (hascii c List.mem_cons_self), Py.isDigit_iff]
    rw [Py.isAlpha_iff, eq_underscore_iff] at hc
    omega
  simp only [fieldOf, if_neg hdigit, readTag, hlower, hre]
  rfl

/-- A tag that the parser reads is in the grammar, but for the Kelvin sign. -/
theorem tagText_of_readTag {f t : List Char} (hk : Py.kelvin ∉ f) (h : readTag f = .ok t) :
    TagText f ∧ t = f.map Char.toLower := by
  unfold readTag at h
  split at h
  · rename_i hre
    cases h
    have hno : '\u0307' ∉ Py.lower f := fun hmem => absurd (tagRe_mem hre hmem) (by decide)
    have hlower := Py.lower_special (fun hmem => absurd hmem hk) hno
    rw [hlower] at hre
    exact ⟨(tagRe_map_iff f).mp hre, hlower⟩
  · cases h

/-! ### Intervals -/

/-- A field with a number of more than 4300 digits. -/
def LongField (f : List Char) : Prop := ∃ piece ∈ f.splitOn '-', Py.maxDigits < piece.length

/-- A tag has no number in it, and is short. -/
theorem TagText.not_long {f : List Char} (h : TagText f) : ¬ LongField f := by
  obtain ⟨c, rest, rfl, hc, hlen, hrest⟩ := h
  have hdash : '-' ∉ c :: rest := by
    intro hmem
    rcases List.mem_cons.mp hmem with rfl | hmem
    · exact absurd hc (by decide)
    · exact absurd (hrest _ hmem) (by decide)
  rw [LongField, List.splitOn_eq_singleton hdash]
  simp only [List.mem_singleton, exists_eq_left, Py.maxDigits, List.length_cons]
  omega

/-- There is no dash in a numeral. -/
theorem not_dash_of_numeral {a : List Char} (h : Py.Numeral a) : '-' ∉ a :=
  fun hmem => absurd (h.2 '-' hmem) (by decide)

/-- A field without a dash is one piece. -/
theorem splitOn_single {a : List Char} (h : Py.Numeral a) : a.splitOn '-' = [a] :=
  List.splitOn_eq_singleton (not_dash_of_numeral h)

/-- A range is two pieces. -/
theorem splitOn_range {a b : List Char} (ha : Py.Numeral a) (hb : Py.Numeral b) :
    (a ++ '-' :: b).splitOn '-' = [a, b] := by
  have hjoin : ['-'].intercalate [a, b] = a ++ '-' :: b := by simp
  rw [← hjoin]
  refine List.splitOn_intercalate '-' ?_ (by simp)
  intro l hl
  rcases List.mem_pair.mp hl with rfl | rfl
  · exact not_dash_of_numeral ha
  · exact not_dash_of_numeral hb

/-- `str.partition` at the dash of an interval. -/
theorem partition_range {a b : List Char} (ha : '-' ∉ a) :
    (a ++ '-' :: b).takeWhile (· ≠ '-') = a ∧ (a ++ '-' :: b).dropWhile (· ≠ '-') = '-' :: b := by
  induction a with
  | nil => simp
  | cons c a ih =>
      rw [List.mem_cons, not_or] at ha
      have hc : c ≠ '-' := fun h => ha.1 h.symm
      simpa [hc] using ih ha.2

/-- What the parser makes of the two numbers of an interval. -/
theorem readInterval_eq {f : List Char} {iv : Int × Int} (h : IntervalText f iv)
    (hle : 1 ≤ iv.1) (hiv : iv.1 ≤ iv.2) (hmax : iv.2 ≤ maxGno) :
    (LongField f → readInterval f = .error (.number f)) ∧
      (¬ LongField f → readInterval f = .ok ⟨iv, hiv⟩) := by
  -- The bounds of an interval that is well formed pass the source's test.
  have hbounds : ¬ (iv.1 < 1 ∨ maxGno < iv.2 ∨ iv.2 < iv.1) := by omega
  cases h with
  | single ha =>
      -- A single number is read as both bounds; only its length can fail.
      have hdash := not_dash_of_numeral ha
      have hlong : LongField f ↔ Py.maxDigits < f.length := by
        rw [LongField, splitOn_single ha]
        simp
      rw [hlong, not_lt]
      simp only [readInterval, if_neg hdash, Py.int_of_numeral ha]
      constructor
      · intro hl
        rw [if_neg (by omega)]
      · intro hl
        rw [if_pos hl]
        exact dif_neg hbounds
  | @range a b ha hb =>
      -- With a dash the field splits at it, and either part may be too long.
      obtain ⟨htake, hdrop⟩ := partition_range (b := b) (not_dash_of_numeral ha)
      have hlong : LongField (a ++ '-' :: b) ↔
          Py.maxDigits < a.length ∨ Py.maxDigits < b.length := by
        rw [LongField, splitOn_range ha hb]
        simp
      rw [hlong, not_or, not_lt, not_lt]
      have hmem : '-' ∈ a ++ '-' :: b := by simp
      simp only [readInterval, if_pos hmem, htake, hdrop, List.drop_succ_cons, List.drop_zero,
        Py.int_of_numeral ha, Py.int_of_numeral hb]
      constructor
      · intro hl
        by_cases hla : a.length ≤ Py.maxDigits
        · rw [if_pos hla, if_neg (by omega)]
        · rw [if_neg hla]
      · rintro ⟨hla, hlb⟩
        rw [if_pos hla, if_pos hlb]
        exact dif_neg hbounds

/-- `str.partition` at the first dash, twice the field where there is none. -/
def bounds (f : List Char) : List Char × List Char :=
  if '-' ∈ f then (f.takeWhile (· ≠ '-'), (f.dropWhile (· ≠ '-')).drop 1) else (f, f)

/-- `int` reads both bounds, and they are in range and in order. -/
def LooseInterval (f : List Char) : Prop :=
  ∃ s e, Py.int (bounds f).1 = some s ∧ Py.int (bounds f).2 = some e ∧
    1 ≤ s ∧ s ≤ e ∧ e ≤ maxGno

/-- An interval is read exactly if both bounds are numbers in range and in order. -/
theorem readInterval_ok_iff (f : List Char) (iv : { iv : Int × Int // iv.1 ≤ iv.2 }) :
    readInterval f = .ok iv ↔ Py.int (bounds f).1 = some iv.1.1 ∧
      Py.int (bounds f).2 = some iv.1.2 ∧ 1 ≤ iv.1.1 ∧ iv.1.2 ≤ maxGno := by
  obtain ⟨⟨s, e⟩, hse⟩ := iv
  have hfirst : (if '-' ∈ f then f.takeWhile (· ≠ '-') else f) = (bounds f).1 := by
    rw [bounds]
    split <;> rfl
  have hsecond : (if '-' ∈ f then (f.dropWhile (· ≠ '-')).drop 1 else f) = (bounds f).2 := by
    rw [bounds]
    split <;> rfl
  simp only [readInterval]
  rw [hfirst, hsecond]
  constructor
  · intro h
    split at h
    · rename_i s' e' hs he
      split at h
      · cases h
      · rename_i hbounds
        cases h
        exact ⟨hs, he, by omega, by omega⟩
    · cases h
  · rintro ⟨hs, he, hle, hmax⟩
    simp only at hse hs he hle hmax
    rw [hs, he]
    exact dif_neg (by omega)

/-- The loose intervals are those that the parser reads. -/
theorem looseInterval_iff (f : List Char) : LooseInterval f ↔ ∃ iv, readInterval f = .ok iv := by
  constructor
  · rintro ⟨s, e, hs, he, hle, hse, hmax⟩
    exact ⟨⟨(s, e), hse⟩, (readInterval_ok_iff f _).mpr ⟨hs, he, hle, hmax⟩⟩
  · rintro ⟨iv, hiv⟩
    obtain ⟨hs, he, hle, hmax⟩ := (readInterval_ok_iff f iv).mp hiv
    exact ⟨_, _, hs, he, hle, iv.2, hmax⟩

/-- A positive number of dashes and ASCII digits has no dash. -/
theorem numeral_of_int {b : List Char} {e : Int}
    (hchars : ∀ d ∈ b, d = '-' ∨ d.isDigit = true) (h : Py.int b = some e) (he : 1 ≤ e) :
    Py.Numeral b := by
  have hspace : ∀ d ∈ b, Py.isSpace d = false := by
    intro d hd
    rcases hchars d hd with rfl | hdigit
    · decide
    · exact Py.not_isSpace_of_isDigit hdigit
  rw [Py.int, Py.stripNumber_of_forall hspace] at h
  split at h
  · obtain ⟨n, -, rfl⟩ := Option.map_eq_some_iff.mp h
    omega
  · have hplus := hchars '+' List.mem_cons_self
    exact absurd hplus (by decide)
  · obtain ⟨n, hn, -⟩ := Option.map_eq_some_iff.mp h
    obtain ⟨ds, hds, -⟩ := Option.bind_eq_some_iff.mp hn
    refine ⟨?_, fun d hd => ?_⟩
    · rintro rfl
      cases hds
    · rcases hchars d hd with rfl | hdigit
      · exact absurd (Py.mem_of_digits b ds hds _ hd) (by decide)
      · exact hdigit

/-- `int` reads a numeral as its number. -/
theorem number_of_int {a : List Char} {s : Int} (ha : Py.Numeral a) (h : Py.int a = some s) :
    s = number a := by
  rw [Py.int_of_numeral ha] at h
  split at h
  · exact (Option.some.inj h).symm
  · cases h

/-- An interval that the parser reads is in the grammar if it consists of dashes and ASCII
digits. -/
theorem intervalText_of_readInterval {f : List Char} {iv : { iv : Int × Int // iv.1 ≤ iv.2 }}
    (hchars : ∀ d ∈ f, d = '-' ∨ d.isDigit = true) (h : readInterval f = .ok iv) :
    IntervalText f iv.1 := by
  obtain ⟨hs, he, hle, -⟩ := (readInterval_ok_iff f iv).mp h
  have hle' := iv.2
  by_cases hdash : '-' ∈ f
  · obtain ⟨a, b, hf, ha⟩ := List.eq_append_cons_of_mem hdash
    obtain ⟨htake, hdrop⟩ := partition_range (b := b) ha
    have hbounds : bounds f = (a, b) := by
      rw [bounds, if_pos hdash, hf, htake, hdrop]
      rfl
    rw [hbounds] at hs he
    have hnum : Py.Numeral a :=
      numeral_of_int (fun d hd => hchars d (by simp [hf, hd])) hs hle
    have hnum' : Py.Numeral b :=
      numeral_of_int (fun d hd => hchars d (by simp [hf, hd])) he (by omega)
    have hiv : iv.1 = (number a, number b) :=
      Prod.ext (number_of_int hnum hs) (number_of_int hnum' he)
    rw [hf, hiv]
    exact .range hnum hnum'
  · have hbounds : bounds f = (f, f) := by
      rw [bounds, if_neg hdash]
    rw [hbounds] at hs he
    have hnum : Py.Numeral f := numeral_of_int hchars hs hle
    have hiv : iv.1 = (number f, number f) :=
      Prod.ext (number_of_int hnum hs) (number_of_int hnum he)
    rw [hiv]
    exact .single hnum

/-! ### Fields -/

/-- The checks of the parser on one field. -/
def LooseField (f : List Char) : Prop :=
  ∃ c rest, f = c :: rest ∧
    ((Py.isDigit c = true ∧ LooseInterval f) ∨
      (Py.isDigit c = false ∧ tagRe (Py.lower f) = true))

/-- A field with a spelling that only the parser takes: the Kelvin sign, or in an interval a
character that is neither a dash nor an ASCII digit. -/
def SloppyField (f : List Char) : Prop :=
  Py.kelvin ∈ f ∨
    ∃ c rest, f = c :: rest ∧ Py.isDigit c = true ∧ ∃ d ∈ f, d ≠ '-' ∧ d.isDigit = false

/-- The loose fields are those that the parser takes. -/
theorem looseField_iff (f : List Char) : LooseField f ↔ ∃ fd, fieldOf f = some fd := by
  cases f with
  -- An empty field is neither a tag nor an interval.
  | nil =>
      constructor
      · rintro ⟨c, rest, h, -⟩
        cases h
      · rintro ⟨fd, h⟩
        cases h
  | cons c rest =>
      -- The first character decides which of the two a field can be.
      have hcons : LooseField (c :: rest) ↔
          (Py.isDigit c = true ∧ LooseInterval (c :: rest)) ∨
            (Py.isDigit c = false ∧ tagRe (Py.lower (c :: rest)) = true) := by
        constructor
        · rintro ⟨c', rest', h, hf⟩
          obtain ⟨rfl, rfl⟩ := List.cons.inj h
          exact hf
        · intro h
          exact ⟨c, rest, rfl, h⟩
      rw [hcons]
      cases hdigit : Py.isDigit c with
      -- A digit: the field is loose exactly when it reads as an interval.
      | true =>
          simp only [fieldOf, hdigit, looseInterval_iff, if_true, true_and, reduceCtorEq,
            false_and, or_false]
          cases hr : readInterval (c :: rest) with
          | ok iv => exact iff_of_true ⟨iv, rfl⟩ ⟨.interval iv.1, rfl⟩
          | error e => simp [Except.toOption]
      -- No digit: a tag, if the source's pattern matches.
      | false =>
          simp only [fieldOf, hdigit, readTag, Bool.false_eq_true, false_and, false_or, true_and,
            if_false]
          split
          · rename_i hre
            exact iff_of_true hre ⟨_, rfl⟩
          · rename_i hre
            simp [hre, Except.toOption]

/-- A field is read as an interval if and only if it starts with a digit. -/
theorem isInterval_of_fieldOf {c : Char} {rest : List Char} {fd : Field}
    (h : fieldOf (c :: rest) = some fd) : fd.isInterval = Py.isDigit c := by
  simp only [fieldOf] at h
  split at h
  · rename_i hdigit
    obtain ⟨iv, -, rfl⟩ := Option.map_eq_some_iff.mp h
    exact hdigit.symm
  · rename_i hdigit
    obtain ⟨t, -, rfl⟩ := Option.map_eq_some_iff.mp h
    simpa [Field.isInterval] using hdigit

/-- The characters of an interval. -/
theorem IntervalText.mem {f : List Char} {iv : Int × Int} (h : IntervalText f iv) :
    ∀ d ∈ f, d = '-' ∨ d.isDigit = true := by
  cases h with
  | single ha => exact fun d hd => .inr (ha.2 d hd)
  | range ha hb =>
      intro d hd
      rw [List.mem_append, List.mem_cons] at hd
      rcases hd with hd | rfl | hd
      · exact .inr (ha.2 d hd)
      · exact .inl rfl
      · exact .inr (hb.2 d hd)

/-- An interval begins with a digit. -/
theorem IntervalText.head {f : List Char} {iv : Int × Int} (h : IntervalText f iv) :
    ∃ c rest, f = c :: rest ∧ c.isDigit = true := by
  have hnum : ∀ a r : List Char, Py.Numeral a → ∃ c rest, a ++ r = c :: rest ∧
      c.isDigit = true := by
    intro a r ha
    obtain ⟨c, rest, rfl⟩ := List.exists_cons_of_ne_nil ha.1
    exact ⟨c, rest ++ r, rfl, ha.2 c List.mem_cons_self⟩
  cases h with
  | single ha => simpa using hnum f [] ha
  | range ha hb => exact hnum _ _ ha

/-- No field of the grammar is sloppy. -/
theorem FieldText.not_sloppy {f : List Char} {fd : Field} (h : FieldText f fd) :
    ¬ SloppyField f := by
  cases h with
  | interval hiv _ _ _ =>
      have hmem := hiv.mem
      rintro (hk | ⟨c, rest, -, -, d, hd, hdash, hdigit⟩)
      · exact absurd (hmem _ hk) (by decide)
      · rcases hmem d hd with h | h
        · exact hdash h
        · rw [h] at hdigit
          cases hdigit
  | tag ht =>
      have hascii := ht.ascii
      rintro (hk | ⟨c, rest, hf, hdigit, -⟩)
      · exact absurd (hascii _ hk) (by decide)
      · have hc : c ∈ f := by simp [hf]
        obtain ⟨c', rest', hf', halpha, -⟩ := ht
        obtain ⟨rfl, -⟩ := List.cons.inj (hf.symm.trans hf')
        rw [Py.isDigit_of_ascii (hascii c hc), Py.isDigit_iff] at hdigit
        rw [Py.isAlpha_iff, eq_underscore_iff] at halpha
        omega

/-- The parser reads a field of the grammar if its numbers are not too long. -/
theorem FieldText.fieldOf_eq {f : List Char} {fd : Field} (h : FieldText f fd) :
    (LongField f → fieldOf f = none) ∧ (¬ LongField f → fieldOf f = some fd) := by
  cases h with
  | @interval iv hiv hle hse hmax =>
      obtain ⟨hlong, hshort⟩ := readInterval_eq hiv hle hse hmax
      obtain ⟨c, rest, rfl, hdigit⟩ := hiv.head
      have hpy : Py.isDigit c = true := by
        rw [Py.isDigit, Py.decimal_of_isDigit hdigit]
        rfl
      simp only [fieldOf, if_pos hpy]
      constructor
      · intro hl
        rw [hlong hl]
        rfl
      · intro hl
        rw [hshort hl]
        rfl
  | tag ht => exact ⟨fun hl => absurd hl ht.not_long, fun _ => ht.fieldOf_eq⟩

/-- A field that the parser reads is in the grammar if it is not sloppy. -/
theorem fieldText_of_fieldOf {f : List Char} {fd : Field} (hs : ¬ SloppyField f)
    (h : fieldOf f = some fd) : FieldText f fd := by
  cases f with
  | nil => cases h
  | cons c rest =>
      simp only [fieldOf] at h
      split at h
      · rename_i hdigit
        obtain ⟨iv, hiv, rfl⟩ := Option.map_eq_some_iff.mp h
        have hread := eq_ok_of_toOption hiv
        have hchars : ∀ d ∈ c :: rest, d = '-' ∨ d.isDigit = true := by
          intro d hd
          by_contra hno
          rw [not_or] at hno
          exact hs (.inr ⟨c, rest, rfl, hdigit, d, hd, hno.1, by simpa using hno.2⟩)
        obtain ⟨-, -, hle, hmax⟩ := (readInterval_ok_iff _ iv).mp hread
        exact .interval (intervalText_of_readInterval hchars hread) hle iv.2 hmax
      · obtain ⟨t, ht, rfl⟩ := Option.map_eq_some_iff.mp h
        have hread := eq_ok_of_toOption ht
        obtain ⟨htag, rfl⟩ := tagText_of_readTag (fun hk => hs (.inl hk)) hread
        exact .tag htag

end GtidSet

end DbGuard
